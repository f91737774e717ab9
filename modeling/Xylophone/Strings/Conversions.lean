import Xylophone.Infra.Numeral
import Xylophone.Strings.Basic

/-!
# `string.h`: numbers and numerals

`uitoa` and `itoa` put the digits into a buffer of 33 characters, the last one first, and copy
them back. A digit that would be stored behind the buffer, and a division that traps, end the run.

* `uitoa_numeral` — the numeral that `uitoa` writes, and what `uatoi` makes of it
* `itoa_numeral_iff` — the numbers of which `itoa` writes a numeral
* `exists_no_numeral` — a number of which it writes something else
-/

namespace Xylophone

open Infra Memory

/-! ## The source -/

/-- The value of an `int` to which `x` is assigned. -/
def int32 (x : Int) : Int := toInt32 (x % 0x100000000).toNat

/-- `(rem < 10) ? ('0' + rem) : ('A' + rem - 10)`, as a `char` -/
def digitByte (rem : Int) : Nat := ((if rem < 10 then 48 + rem else 65 + rem - 10) % 0x100).toNat

/-- The first loop of `uitoa`, with space for `room` more characters in `buf`. -/
def uitoaLoop (base : Nat) : (room num : Nat) → (buf : List Nat) → Option (List Nat)
  | 0, _, _ => none
  | room + 1, num, buf =>
    if base = 0 then none
    else
      let buf := buf ++ [digitByte (toInt32 (num % base))]
      if 0 < num / base then uitoaLoop base room (num / base) buf else some buf

/-- The first loop of `itoa`. C divides towards zero. -/
def itoaLoop (base : Int) : (room : Nat) → (num : Int) → (buf : List Nat) → Option (List Nat)
  | 0, _, _ => none
  | room + 1, num, buf =>
    if base = 0 ∨ (base = -1 ∧ num = -0x80000000) then none
    else
      let buf := buf ++ [digitByte (num.tmod base)]
      if 0 < num.tdiv base then itoaLoop base room (num.tdiv base) buf else some buf

/-- The loop that copies `buf` to `str[j]`, `k` characters of it from the last one on. -/
def copyBack (str : Nat) (buf : List Nat) : (k j : Nat) → Memory → Memory × Nat
  | 0, j, m => (m, j)
  | k + 1, j, m => copyBack str buf k (j + 1) (m.write8 (str + j) (buf.getD k 0))

/-- `uitoa` -/
def uitoa (m : Memory) (num str : Nat) (base : Int) : Option Memory :=
  if str = 0 then some m
  else do
    let buf ← uitoaLoop (base % 0x100000000).toNat 33 num []
    let (m, j) := copyBack str buf buf.length 0 m
    some (m.write8 (str + j) 0)

/-- `itoa` -/
def itoa (m : Memory) (num : Int) (str : Nat) (base : Int) : Option Memory :=
  if str = 0 then some m
  else do
    let neg := num < 0 ∧ base = 10
    let num := if neg then int32 (-num) else num
    let buf ← itoaLoop base 33 num []
    let (m, j) := if neg then (m.write8 str 45, 1) else (m, 0)
    let (m, j) := copyBack str buf buf.length j m
    some (m.write8 (str + j) 0)

/-- `isdigit` -/
def isdigit (c : Nat) : Bool := 48 ≤ c && c ≤ 57

/-- The loop of `atoi` and `uatoi`: `put` takes a digit in. -/
def digitLoop {α : Type} (put : α → Nat → α) (m : Memory) (str : Nat) :
    (fuel : Nat) → (res : α) → (i : Nat) → Option α
  | 0, _, _ => none
  | fuel + 1, res, i =>
    if m.read8 (str + i) = 0 ∨ !isdigit (m.read8 (str + i)) then some res
    else digitLoop put m str fuel (put res (m.read8 (str + i))) (i + 1)

/-- `atoi` -/
def atoi (m : Memory) (str : Nat) : Option Int :=
  if str = 0 then some 0
  else
    let (sign, i) := if m.read8 str = 45 then (-1, 1) else (1, 0)
    (digitLoop (fun res c => int32 (res * 10 + (c - 48))) m str 0x100000000 0 i).map
      fun res => int32 (res * sign)

/-- `uatoi` -/
def uatoi (m : Memory) (str : Nat) : Option Nat :=
  if str = 0 then some 0
  else digitLoop (fun res c => wrap32 (res * 10 + (c - 48))) m str 0x100000000 0 0

variable {m m' : Memory} {str base room n : Nat} {buf s : List Nat}

/-! ## Digits -/

theorem digitByte_digit {d : Nat} (h : d < 36) : digitByte d = digitChar d := by
  unfold digitByte digitChar
  split <;> split <;> omega

/-- The digits of an unsigned number. -/
theorem uitoaLoop_eq (hlow : 2 ≤ base) (hhigh : base ≤ 36) (room n : Nat) (buf : List Nat)
    (hroom : (numeralDigits base n).length ≤ room) :
    uitoaLoop base room n buf = some (buf ++ (numeralDigits base n).map digitChar) := by
  induction room generalizing n buf with
  | zero => exact absurd (List.eq_nil_of_length_eq_zero (by omega)) (numeralDigits_ne_nil base n)
  | succ room ih =>
    have hrem : n % base < base := Nat.mod_lt n (by omega)
    have hchar : digitByte (toInt32 (n % base)) = digitChar (n % base) := by
      rw [toInt32, if_pos (by omega)]
      exact digitByte_digit (by omega)
    rw [uitoaLoop, if_neg (by omega)]
    simp only [hchar]
    by_cases hlt : n < base
    · rw [if_neg (by rw [Nat.div_eq_of_lt hlt]; omega), numeralDigits_of_lt hlt,
        Nat.mod_eq_of_lt hlt]
      rfl
    · have hdigits := numeralDigits_of_le (by omega) (Nat.le_of_not_lt hlt)
      rw [hdigits, List.length_cons] at hroom
      rw [if_pos (Nat.div_pos (by omega) (by omega)), ih _ _ (by omega), hdigits]
      simp

/-- On numbers that are not negative `itoa` takes the same digits. -/
theorem itoaLoop_natCast (hlow : 2 ≤ base) (hhigh : base ≤ 36) (room n : Nat) (buf : List Nat) :
    itoaLoop base room n buf = uitoaLoop base room n buf := by
  induction room generalizing n buf with
  | zero => rfl
  | succ room ih =>
    have hrem : n % base < base := Nat.mod_lt n (by omega)
    have hmod : (n : Int).tmod base = toInt32 (n % base) := by
      rw [toInt32, if_pos (by omega)]
      rfl
    have hdiv : (n : Int).tdiv base = (n / base : Nat) := rfl
    rw [itoaLoop, uitoaLoop, if_neg (show ¬((base : Int) = 0 ∨ _) by omega),
      if_neg (show base ≠ 0 by omega)]
    simp only [hmod, hdiv, ih, Int.natCast_pos]

/-- A negative number gives one character. -/
theorem itoaLoop_neg (hlow : 2 ≤ base) (room : Nat) {num : Int} (hneg : num ≤ 0) (buf : List Nat) :
    itoaLoop base (room + 1) num buf = some (buf ++ [digitByte (num.tmod base)]) := by
  have hdiv : num.tdiv base ≤ 0 := by
    obtain ⟨k, rfl⟩ : ∃ k : Nat, num = -(k : Int) := ⟨num.natAbs, by omega⟩
    rw [Int.neg_tdiv]
    exact Int.neg_nonpos_of_nonneg (Int.natCast_nonneg (k / base))
  rw [itoaLoop, if_neg (by omega)]
  simp only []
  rw [if_neg (by omega)]

/-- A word has at most 32 digits. -/
theorem numeralText_length_le (hlow : 2 ≤ base) (hn : n < 0x100000000) :
    (numeralText base n).length ≤ 32 :=
  (numeralText_length base n).trans_le (numeralDigits_length_le (by omega) (by decide)
    (Nat.lt_of_lt_of_le hn (Nat.pow_le_pow_left hlow 32)))

/-- The loop copies the characters from the last one on. -/
theorem copyBack_eq (str : Nat) (buf : List Nat) {k : Nat} (hk : k ≤ buf.length) (j : Nat)
    (m : Memory) :
    copyBack str buf k j m = (m.writeBytes (str + j) (buf.take k).reverse, j + k) := by
  induction k generalizing j m with
  | zero => rfl
  | succ k ih =>
    have htake : buf.take (k + 1) = buf.take k ++ [buf[k]] := (List.take_concat_get' buf k hk).symm
    rw [copyBack, ih (by omega), htake, List.reverse_append, List.getD_eq_getElem _ _ hk]
    simp only [List.reverse_singleton, List.singleton_append, writeBytes, Prod.mk.injEq]
    exact ⟨rfl, by omega⟩

/-- All characters are copied. -/
theorem copyBack_all (str : Nat) (buf : List Nat) (j : Nat) (m : Memory) :
    copyBack str buf buf.length j m = (m.writeBytes (str + j) buf.reverse, j + buf.length) := by
  have hcopy := copyBack_eq str buf (Nat.le_refl _) j m
  rwa [List.take_length] at hcopy

/-! ## Reading a numeral -/

theorem isdigit_digitChar {d : Nat} (h : d < 10) : isdigit (digitChar d) = true := by
  rw [digitChar_of_lt_ten h]
  simp only [isdigit, Bool.and_eq_true, decide_eq_true_eq]
  omega

/-- The loop goes on to the end of the digits. `val` is what `res` holds for a number. -/
theorem digitLoop_digits {α : Type} (put : α → Nat → α) (val : Nat → α)
    (hput : ∀ r d, d < 10 → put (val r) (digitChar d) = val (r * 10 + d))
    (h : HoldsString m str s) {ds : List Nat} (hlt : ∀ d ∈ ds, d < 10) {fuel i : Nat}
    (hs : s.drop i = ds.map digitChar) (hi : i ≤ s.length) (hfuel : ds.length < fuel) (r : Nat) :
    digitLoop put m str fuel (val r) i = some (val (ds.foldl (fun r d => r * 10 + d) r)) := by
  induction ds generalizing fuel i r with
  | nil =>
    obtain ⟨fuel, rfl⟩ : ∃ k, fuel = k + 1 := ⟨fuel - 1, by simp at hfuel; omega⟩
    rw [digitLoop, if_pos (Or.inl (h.read_drop_nil hi hs))]
    rfl
  | cons d ds ih =>
    obtain ⟨fuel, rfl⟩ : ∃ k, fuel = k + 1 := ⟨fuel - 1, by simp at hfuel; omega⟩
    have hd := hlt d List.mem_cons_self
    obtain ⟨hlen, hread, hdrop⟩ := h.read_drop hs
    have hpos := digitChar_pos d
    rw [digitLoop, hread, isdigit_digitChar hd, if_neg (by simp; omega), hput r d hd]
    exact ih (fun d hd => hlt d (List.mem_cons_of_mem _ hd)) hdrop hlen
      (by simp only [List.length_cons] at hfuel; omega) _

theorem int32_of_lt {x : Int} (hlow : -0x80000000 ≤ x) (hhigh : x < 0x80000000) : int32 x = x := by
  unfold int32 toInt32
  omega

/-- The loop is long enough for the digits of a word. -/
theorem numeralDigits_lt_fuel (hn : n < 0x100000000) :
    (numeralDigits 10 n).reverse.length < 0x100000000 := by
  have hlen : (numeralDigits 10 n).length ≤ 10 :=
    numeralDigits_length_le (by decide) (by decide) (by omega)
  rw [List.length_reverse]
  omega

/-- The numeral at the end of a string, as `atoi` reads it. -/
theorem atoi_digits (h : HoldsString m str s) {i : Nat} (hi : i ≤ s.length)
    (hs : s.drop i = numeralText 10 n) (hn : n < 0x80000000) :
    digitLoop (fun res c => int32 (res * 10 + (c - 48))) m str 0x100000000 0 i = some (n : Int) := by
  have hput : ∀ r d : Nat, d < 10 →
      int32 (int32 r * 10 + ((digitChar d : Nat) - 48)) = int32 (r * 10 + d : Nat) := by
    intro r d hd
    rw [digitChar_of_lt_ten hd]
    unfold int32 toInt32
    omega
  have hloop :=
    digitLoop_digits (fun res c => int32 (res * 10 + (c - 48))) (fun r => int32 r) hput h
      (fun d hd => numeralDigits_lt (by decide) (List.mem_reverse.mp hd)) hs hi
      (numeralDigits_lt_fuel (by omega)) 0
  rw [foldl_numeralDigits] at hloop
  exact hloop.trans (congrArg some (int32_of_lt (by omega) (by omega)))

/-- A numeral, as `uatoi` reads it. -/
theorem uatoi_numeralText (h : HoldsString m str (numeralText 10 n)) (hstr : str ≠ 0)
    (hn : n < 0x100000000) : uatoi m str = some n := by
  have hput : ∀ r d : Nat, d < 10 →
      wrap32 (wrap32 r * 10 + (digitChar d - 48)) = wrap32 (r * 10 + d) := by
    intro r d hd
    rw [digitChar_of_lt_ten hd]
    unfold wrap32
    omega
  have hloop :=
    digitLoop_digits (fun res c => wrap32 (res * 10 + (c - 48))) wrap32 hput h
      (fun d hd => numeralDigits_lt (by decide) (List.mem_reverse.mp hd)) (i := 0) rfl
      (Nat.zero_le _) (numeralDigits_lt_fuel hn) 0
  rw [foldl_numeralDigits, wrap32_of_lt hn] at hloop
  rw [uatoi, if_neg hstr]
  exact hloop

/-! ## `uitoa` -/

/-- The whole of `uitoa` writes the digits and a NUL. -/
theorem uitoa_eq (m : Memory) (n : Nat) (hstr : str ≠ 0) (hbase : base < 0x100000000) :
    uitoa m n str base =
      (uitoaLoop base 33 n []).map fun buf => m.writeBytes str (buf.reverse ++ [0]) := by
  have hwrap : ((base : Int) % 0x100000000).toNat = base := by omega
  rw [uitoa, if_neg hstr, hwrap]
  cases uitoaLoop base 33 n [] with
  | none => rfl
  | some buf =>
    simp only [Option.bind_eq_bind, Option.bind_some, copyBack_all, Option.map_some,
      writeBytes_append, List.length_reverse, Nat.add_zero, Nat.zero_add, writeBytes]

/-- The numeral of `n` stands at `str`, and nothing else has been written. -/
structure WritesNumeral (m m' : Memory) (str base n : Nat) (text : List Nat) : Prop where
  holds : HoldsString m' str text
  numeral : Numeral base text n
  noLeadingZero : NoLeadingZero text
  unique : ∀ text', Numeral base text' n → NoLeadingZero text' → text' = text
  short : text.length ≤ 32
  agree : AgreeOff str (str + (text.length + 1)) m m'
  parsed : base = 10 → uatoi m' str = some n

/-- The digits written to a string. -/
theorem writes_numeralText (m : Memory) (hlow : 2 ≤ base) (hhigh : base ≤ 36)
    (hshort : s.length + (numeralText base n).length + 1 < 0x80000000)
    (hfits : str + (s.length + (numeralText base n).length) < 0x100000000)
    (hs : ∀ c ∈ s, 0 < c ∧ c < 0x100) :
    HoldsString (m.writeBytes str (s ++ numeralText base n ++ [0])) str
      (s ++ numeralText base n) := by
  refine writeBytes_holdsString m (fun c hc => ?_) (by simpa using hshort) (by simpa using hfits)
  rcases List.mem_append.mp hc with hc | hc
  · exact hs c hc
  · obtain ⟨d, hd, rfl⟩ := mem_numeralText (by omega) hc
    exact ⟨digitChar_pos d, digitChar_lt (by omega)⟩

/-- **The numeral that `uitoa` writes.** -/
theorem uitoa_numeral (m : Memory) (hlow : 2 ≤ base) (hhigh : base ≤ 36) (hn : n < 0x100000000)
    (hstr : str ≠ 0) (hroom : str + (numeralText base n).length < 0x100000000) :
    ∃ m' text, uitoa m n str base = some m' ∧ WritesNumeral m m' str base n text := by
  have hlen := numeralText_length_le hlow hn
  have htext := numeralText_length base n
  have hloop := uitoaLoop_eq hlow hhigh 33 n [] (by omega)
  have hholds : HoldsString (m.writeBytes str (numeralText base n ++ [0])) str
      (numeralText base n) :=
    writes_numeralText (s := []) m hlow hhigh (by simp; omega) (by simpa using hroom) (by simp)
  refine ⟨_, numeralText base n, ?_, hholds, numeral_numeralText (by omega) n,
    numeralText_noLeadingZero base n, fun text' h hz => h.eq_numeralText (by omega) hz, by omega,
    ?_, ?_⟩
  · rw [uitoa_eq m n hstr (by omega), hloop, Option.map_some, List.nil_append, ← List.map_reverse]
    rfl
  · have hagree := agreeOff_writeBytes m (a := str) (l := numeralText base n ++ [0])
      (by simp; omega)
    rwa [List.length_append] at hagree
  · rintro rfl
    exact uatoi_numeralText hholds hstr hn

/-- The largest number, in base 2. -/
theorem uitoa_numeral_binary : ∃ m' text, uitoa (fun _ => 0) 0xFFFFFFFF 0x1000 (2 : Nat) = some m' ∧
    WritesNumeral (fun _ => 0) m' 0x1000 2 0xFFFFFFFF text := by
  refine uitoa_numeral (fun _ => 0) (by decide) (by decide) (by decide) (by decide) ?_
  rw [numeralText_length]
  have hlen : (numeralDigits 2 0xFFFFFFFF).length ≤ 32 :=
    numeralDigits_length_le (by decide) (by decide) (by decide)
  omega

/-! ## `itoa` -/

/-- The characters that `itoa` writes in front of the NUL. -/
def itoaText (num : Int) (base : Int) : Option (List Nat) :=
  if num < 0 ∧ base = 10 then (itoaLoop base 33 (int32 (-num)) []).map fun buf => 45 :: buf.reverse
  else (itoaLoop base 33 num []).map List.reverse

theorem itoa_eq (m : Memory) (num : Int) (hstr : str ≠ 0) (base : Int) :
    itoa m num str base = (itoaText num base).map fun text => m.writeBytes str (text ++ [0]) := by
  rw [itoa, if_neg hstr, itoaText]
  by_cases hneg : num < 0 ∧ base = 10
  · simp only [if_pos hneg]
    cases itoaLoop base 33 (int32 (-num)) [] with
    | none => rfl
    | some buf =>
      simp only [Option.bind_eq_bind, Option.bind_some, copyBack_all, Option.map_some, writeBytes,
        writeBytes_append, List.length_reverse, List.length_cons, Nat.add_comm 1]
  · simp only [if_neg hneg]
    cases itoaLoop base 33 num [] with
    | none => rfl
    | some buf =>
      simp only [Option.bind_eq_bind, Option.bind_some, copyBack_all, Option.map_some,
        writeBytes_append, List.length_reverse, Nat.add_zero, Nat.zero_add, writeBytes]

/-- A number that is not negative. -/
theorem itoaText_natCast (hlow : 2 ≤ base) (hhigh : base ≤ 36) (hn : n < 0x100000000) :
    itoaText n base = some (numeralText base n) := by
  have hlen := numeralText_length_le hlow hn
  rw [numeralText_length] at hlen
  rw [itoaText, if_neg (by omega), itoaLoop_natCast hlow hhigh,
    uitoaLoop_eq hlow hhigh 33 n [] (by omega), Option.map_some, List.nil_append, ← List.map_reverse]
  rfl

/-- A negative number in base 10. -/
theorem itoaText_neg (hpos : 0 < n) (hn : n < 0x80000000) :
    itoaText (-n) 10 = some (45 :: numeralText 10 n) := by
  have hlen : (numeralDigits 10 n).length ≤ 32 :=
    numeralDigits_length_le (by decide) (by decide) (by omega)
  have habs : int32 (-(-n : Int)) = n := by rw [neg_neg, int32_of_lt (by omega) (by omega)]
  have hloop : itoaLoop 10 33 n [] = uitoaLoop 10 33 n [] :=
    itoaLoop_natCast (by decide) (by decide) 33 n []
  rw [itoaText, if_pos ⟨by omega, rfl⟩, habs, hloop,
    uitoaLoop_eq (by decide) (by decide) 33 n [] (by omega), Option.map_some, List.nil_append,
    ← List.map_reverse]
  rfl

/-- A negative number in another base: one character, which is no digit but "0". -/
theorem itoaText_other (hlow : 2 ≤ base) (hhigh : base ≤ 36) (hten : base ≠ 10) {num : Int}
    (hneg : num < 0) : ∃ c, 0 < c ∧ c ≤ 48 ∧ itoaText num base = some [c] := by
  have hrem : -(base : Int) < num.tmod base ∧ num.tmod base ≤ 0 := by
    obtain ⟨k, rfl⟩ : ∃ k : Nat, num = -(k : Int) := ⟨num.natAbs, by omega⟩
    have hlt : k % base < base := Nat.mod_lt k (by omega)
    have hcast : (k : Int).tmod base = (k % base : Nat) := rfl
    rw [Int.neg_tmod, hcast]
    omega
  refine ⟨digitByte (num.tmod base), ?_, ?_, ?_⟩
  · unfold digitByte
    split <;> omega
  · unfold digitByte
    split <;> omega
  · rw [itoaText, if_neg (by omega), itoaLoop_neg hlow 32 hneg.le]
    rfl

/-- The least number in base 10. -/
theorem itoaText_least : itoaText (-0x80000000) 10 = some [45, 40] := by decide

/-- `text` is a numeral of `v`, with at most one sign in front of it. -/
def Denotes (base : Nat) (text : List Nat) (v : Int) : Prop :=
  (∃ k : Nat, v = k ∧ Numeral base text k) ∨
    ∃ k : Nat, v = -k ∧ ∃ rest, text = 45 :: rest ∧ Numeral base rest k

/-- `itoa` writes a numeral of `n` in base 10, and of the bits of `n` in other bases, and `atoi` reads
the one in base 10. -/
def ItoaCorrect (m : Memory) (num : Int) (str base : Nat) : Prop :=
  ∃ m' text, itoa m num str base = some m' ∧ HoldsString m' str text ∧
    Denotes base text (if base = 10 then num else num % 0x100000000) ∧
    (base = 10 → atoi m' str = some num)

/-- What is written is correct when it denotes the number and `atoi` reads it. -/
theorem itoaCorrect_iff (m : Memory) {num : Int} {text : List Nat} (hstr : str ≠ 0)
    (htext : itoaText num base = some text)
    (hholds : HoldsString (m.writeBytes str (text ++ [0])) str text) :
    ItoaCorrect m num str base ↔
      Denotes base text (if base = 10 then num else num % 0x100000000) ∧
        (base = 10 → atoi (m.writeBytes str (text ++ [0])) str = some num) := by
  have hrun := itoa_eq m num hstr base
  rw [htext, Option.map_some] at hrun
  constructor
  · rintro ⟨m', text', hm', hholds', hdenotes, hparse⟩
    rw [hrun, Option.some_inj] at hm'
    subst hm'
    rw [hholds'.unique hholds] at hdenotes
    exact ⟨hdenotes, hparse⟩
  · rintro ⟨hdenotes, hparse⟩
    exact ⟨_, text, hrun, hholds, hdenotes, hparse⟩

/-- `atoi` of a numeral without a sign. -/
theorem atoi_numeralText (h : HoldsString m str (numeralText 10 n)) (hstr : str ≠ 0)
    (hn : n < 0x80000000) : atoi m str = some (n : Int) := by
  have hfirst : m.read8 str ≠ 45 := by
    intro hread
    have hnumeral : Numeral 10 (numeralText 10 n) n := numeral_numeralText (by decide) n
    obtain ⟨c, rest, htext⟩ := List.exists_cons_of_ne_nil hnumeral.ne_nil
    have hc : 48 ≤ c := hnumeral.le_char (by simp [htext])
    have hchar := (h.read_drop (i := 0) htext).2.1
    rw [Nat.add_zero, hread] at hchar
    omega
  have hloop := atoi_digits h (i := 0) (Nat.zero_le _) rfl hn
  rw [atoi, if_neg hstr, if_neg hfirst]
  simp only [hloop, Option.map_some, mul_one]
  exact congrArg some (int32_of_lt (by omega) (by omega))

/-- `atoi` of a numeral with a sign. -/
theorem atoi_sign (h : HoldsString m str (45 :: numeralText 10 n)) (hstr : str ≠ 0)
    (hn : n < 0x80000000) : atoi m str = some (-n : Int) := by
  have hfirst : m.read8 str = 45 := (h.read_drop (i := 0) rfl).2.1
  have hloop := atoi_digits h (i := 1) (by simp) rfl hn
  rw [atoi, if_neg hstr, if_pos hfirst]
  simp only [hloop, Option.map_some, mul_neg, mul_one]
  exact congrArg some (int32_of_lt (by omega) (by omega))

theorem itoaCorrect_natCast (m : Memory) (hlow : 2 ≤ base) (hhigh : base ≤ 36)
    (hn : n < 0x80000000) (hstr : str ≠ 0)
    (hroom : str + (numeralText base n).length < 0x100000000) : ItoaCorrect m n str base := by
  have hlen := numeralText_length_le (n := n) hlow (by omega)
  have hholds : HoldsString (m.writeBytes str (numeralText base n ++ [0])) str
      (numeralText base n) :=
    writes_numeralText (s := []) m hlow hhigh (by simp; omega) (by simpa using hroom) (by simp)
  rw [itoaCorrect_iff m hstr (itoaText_natCast hlow hhigh (by omega)) hholds]
  refine ⟨Or.inl ⟨n, ?_, numeral_numeralText (by omega) n⟩, ?_⟩
  · split <;> omega
  · rintro rfl
    exact atoi_numeralText hholds hstr hn

theorem itoaCorrect_neg (m : Memory) (hpos : 0 < n) (hn : n < 0x80000000) (hstr : str ≠ 0)
    (hroom : str + (45 :: numeralText 10 n).length < 0x100000000) :
    ItoaCorrect m (-n) str 10 := by
  have hlen : (numeralText 10 n).length ≤ 32 := numeralText_length_le (by decide) (by omega)
  rw [List.length_cons] at hroom
  have hholds : HoldsString (m.writeBytes str (45 :: numeralText 10 n ++ [0])) str
      (45 :: numeralText 10 n) :=
    writes_numeralText (s := [45]) m (by decide) (by decide) (by simp; omega) (by simp; omega)
      (by decide)
  rw [itoaCorrect_iff m hstr (itoaText_neg hpos hn) hholds]
  exact ⟨Or.inr ⟨n, by simp, _, rfl, numeral_numeralText (by decide) n⟩,
    fun _ => atoi_sign hholds hstr hn⟩

/-- The negation of the least number is the least number again: its remainder is no digit. -/
theorem not_itoaCorrect_least (m : Memory) (hstr : str ≠ 0) (hroom : str + 2 < 0x100000000) :
    ¬ItoaCorrect m (-0x80000000) str 10 := by
  have hholds : HoldsString (m.writeBytes str ([45, 40] ++ [0])) str [45, 40] :=
    writeBytes_holdsString m (by decide) (by decide) hroom
  rw [itoaCorrect_iff m hstr itoaText_least hholds]
  rintro ⟨⟨k, -, hnumeral⟩ | ⟨k, -, rest, hrest, hnumeral⟩, -⟩
  · exact absurd (hnumeral.le_char List.mem_cons_self) (by decide)
  · rw [← (List.cons.inj hrest).2] at hnumeral
    exact absurd (hnumeral.le_char List.mem_cons_self) (by decide)

/-- A negative number in another base ends after one character. -/
theorem not_itoaCorrect_other (m : Memory) (hlow : 2 ≤ base) (hhigh : base ≤ 36) (hten : base ≠ 10)
    {num : Int} (hmin : -0x80000000 ≤ num) (hneg : num < 0) (hstr : str ≠ 0)
    (hroom : str + 1 < 0x100000000) : ¬ItoaCorrect m num str base := by
  obtain ⟨c, hpos, hc, htext⟩ := itoaText_other hlow hhigh hten hneg
  have hholds : HoldsString (m.writeBytes str ([c] ++ [0])) str [c] :=
    writeBytes_holdsString m (by simp; omega) (by simp) hroom
  rw [itoaCorrect_iff m hstr htext hholds]
  rintro ⟨⟨k, hk, hnumeral⟩ | ⟨k, -, rest, hrest, hnumeral⟩, -⟩
  · have hzero : c = 48 := Nat.le_antisymm hc (hnumeral.le_char List.mem_cons_self)
    subst hzero
    rw [if_neg hten, hnumeral.eq_zero] at hk
    omega
  · rw [← (List.cons.inj hrest).2] at hnumeral
    exact hnumeral.ne_nil rfl

/-- **The numbers of which `itoa` writes a numeral.** -/
theorem itoa_numeral_iff (m : Memory) (hlow : 2 ≤ base) (hhigh : base ≤ 36) {num : Int}
    (hmin : -0x80000000 ≤ num) (hmax : num < 0x80000000) (hstr : str ≠ 0)
    (hroom : ∀ text, itoaText num base = some text → str + text.length < 0x100000000) :
    ItoaCorrect m num str base ↔ 0 ≤ num ∨ (base = 10 ∧ num ≠ -0x80000000) := by
  rcases le_or_gt 0 num with hpos | hneg
  · obtain ⟨n, rfl⟩ := Int.eq_ofNat_of_zero_le hpos
    have hfits := hroom _ (itoaText_natCast hlow hhigh (by omega))
    exact iff_of_true (itoaCorrect_natCast m hlow hhigh (by omega) hstr hfits) (Or.inl hpos)
  rcases eq_or_ne base 10 with rfl | hten
  · rcases eq_or_ne num (-0x80000000) with rfl | hleast
    · exact iff_of_false (not_itoaCorrect_least m hstr (hroom _ itoaText_least)) (by omega)
    · obtain ⟨n, rfl⟩ : ∃ n : Nat, num = -n := ⟨num.natAbs, by omega⟩
      have hfits := hroom _ (itoaText_neg (by omega) (by omega))
      exact iff_of_true (itoaCorrect_neg m (by omega) (by omega) hstr hfits)
        (Or.inr ⟨rfl, hleast⟩)
  · obtain ⟨c, -, -, htext⟩ := itoaText_other hlow hhigh hten hneg
    exact iff_of_false (not_itoaCorrect_other m hlow hhigh hten hmin hneg hstr (hroom _ htext))
      (by omega)

theorem itoa_numeral_iff_minusSeven :
    ItoaCorrect (fun _ => 0) (-7) 0x1000 10 ↔ (0 : Int) ≤ -7 ∨ (10 = 10 ∧ (-7 : Int) ≠ -0x80000000) := by
  refine itoa_numeral_iff (fun _ => 0) (by decide) (by decide) (by decide) (by decide) (by decide) ?_
  intro text htext
  have hseven : itoaText (-7) 10 = some [45, 55] := by decide
  rw [Nat.cast_ofNat, hseven, Option.some_inj] at htext
  subst htext
  decide

/-- **`itoa(-1, str, 16)`** writes a slash. -/
theorem exists_no_numeral : ¬ ∀ (m : Memory) (num : Int) (str base : Nat), 2 ≤ base → base ≤ 36 →
    -0x80000000 ≤ num → num < 0x80000000 → str ≠ 0 → str + 33 < 0x100000000 →
      ItoaCorrect m num str base := by
  intro hall
  have hcorrect := hall (fun _ => 0) (-1) 0x1000 16 (by decide) (by decide) (by decide) (by decide)
    (by decide) (by decide)
  have htext : itoaText (-1) (16 : Nat) = some [47] := by decide
  have hholds : HoldsString (Memory.writeBytes (fun _ => 0) 0x1000 ([47] ++ [0])) 0x1000 [47] :=
    writeBytes_holdsString _ (by decide) (by decide) (by decide)
  rw [itoaCorrect_iff _ (by decide) htext hholds] at hcorrect
  rcases hcorrect.1 with ⟨k, -, hnumeral⟩ | ⟨k, -, rest, hrest, -⟩
  · exact absurd (hnumeral.le_char List.mem_cons_self) (by decide)
  · exact absurd (List.cons.inj hrest).1 (by decide)

end Xylophone
