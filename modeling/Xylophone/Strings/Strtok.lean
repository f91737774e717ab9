import Mathlib.Data.List.Induction
import Xylophone.Infra.Tokens
import Xylophone.Data.FastMemory
import Xylophone.Strings.Basic

/-!
# `strtok`

The place where the next call goes on is kept in `saveptr`. A call skips the delimiters there,
copies what stands in front of the next one, and leaves a null pointer when the string has ended.

* `strtok_step` — what one call does with the tokens that remain
* `strtok_tokens` — what a call with the string and the calls without one return
-/

namespace Xylophone

open Infra Memory

/-! ## The source -/

/-- The loop of `strchr`. -/
def strchrLoop (m : Memory) (c : Nat) : (fuel s : Nat) → Option Nat
  | 0, _ => none
  | fuel + 1, s =>
    if m.read8 s ≠ 0 then
      if m.read8 s = c then some s else strchrLoop m c fuel (s + 1)
    else some (if c = 0 then s else 0)

/-- `strchr` -/
def strchr (m : Memory) (s c : Nat) : Option Nat := strchrLoop m c 0x100000000 s

/-- The loops over `start` and `end`. They end at the NUL, or when `stay` fails for what `strchr`
returns. -/
def scanDelims (m : Memory) (delim : Nat) (stay : Nat → Bool) : (fuel p : Nat) → Option Nat
  | 0, _ => none
  | fuel + 1, p =>
    if m.read8 p ≠ 0 then do
      let found ← strchr m delim (m.read8 p)
      if stay found then scanDelims m delim stay fuel (p + 1) else some p
    else some p

/-- `while (*start && strchr(delim, *start)) start++;` -/
def skipDelims (m : Memory) (delim start : Nat) : Option Nat :=
  scanDelims m delim (fun found => found != 0) 0x100000000 start

/-- `while (*end && !strchr(delim, *end)) end++;` -/
def skipToken (m : Memory) (delim stop : Nat) : Option Nat :=
  scanDelims m delim (fun found => found == 0) 0x100000000 stop

/-- The memory and the static variable of `strtok`. -/
structure StrtokState where
  mem : Memory
  saveptr : Nat

/-- `strtok`: the pointer it returns. Its loop over `i` is the one of `memcpy`. -/
def strtok (st : StrtokState) (str delim out : Nat) : Option (Nat × StrtokState) :=
  let saveptr := if str ≠ 0 then str else st.saveptr
  if saveptr = 0 then some (0, { st with saveptr })
  else do
    let start ← skipDelims st.mem delim saveptr
    if st.mem.read8 start = 0 then some (0, { st with saveptr })
    else do
      let stop ← skipToken st.mem delim start
      let len := toInt32 (sub32 stop start)
      let m := memcpy st.mem out start len.toNat
      let m := m.write8 ((out + len) % 0x100000000).toNat 0
      some (out, ⟨m, if m.read8 stop ≠ 0 then stop + 1 else 0⟩)

/-- `strtok(str, delim, out)`, and after it `n` times `strtok(NULL, delim, out)`: what the last of
these calls returns. -/
def strtokCalls (st : StrtokState) (str delim out : Nat) : (n : Nat) → Option (Nat × StrtokState)
  | 0 => strtok st str delim out
  | n + 1 => do
    let (_, st) ← strtokCalls st str delim out n
    strtok st 0 delim out

/-! ## The loops -/

/-- The characters of the delimiter set. -/
def isDelim (d : List Nat) (c : Nat) : Bool := decide (c ∈ d)

variable {m m' : Memory} {st : StrtokState} {str delim out size : Nat} {s d : List Nat}
  {ts : List (List Nat)}

theorem strchrLoop_holds (h : HoldsString m delim d) {c : Nat} (hc : c ≠ 0) (fuel : Nat) {i : Nat}
    (hpos : 0 < delim + i) (hi : i ≤ d.length) (hfuel : d.length - i < fuel) :
    ∃ found, strchrLoop m c fuel (delim + i) = some found ∧ (found ≠ 0 ↔ c ∈ d.drop i) := by
  induction fuel generalizing i with
  | zero => exact absurd hfuel (Nat.not_lt_zero _)
  | succ fuel ih =>
    rw [strchrLoop]
    cases hdrop : d.drop i with
    | nil =>
      rw [h.read_drop_nil hi hdrop, if_neg (by decide), if_neg hc]
      exact ⟨0, rfl, by simp⟩
    | cons b rest =>
      obtain ⟨hlt, hread, hrest⟩ := h.read_drop hdrop
      rw [if_pos (h.read_ne hlt), hread]
      by_cases hb : b = c
      · rw [if_pos hb]
        exact ⟨delim + i, rfl, iff_of_true (by omega) (by rw [hb]; exact List.mem_cons_self)⟩
      · obtain ⟨found, hfound, hiff⟩ := ih (i := i + 1) (by omega) hlt (by omega)
        rw [if_neg hb]
        refine ⟨found, hfound, ?_⟩
        rw [hiff, hrest, List.mem_cons, or_iff_right fun heq => hb heq.symm]

/-- `strchr` finds the characters of the string. -/
theorem strchr_holds (h : HoldsString m delim d) (hdelim : delim ≠ 0) {c : Nat} (hc : c ≠ 0) :
    ∃ found, strchr m delim c = some found ∧ (found != 0) = isDelim d c := by
  have hshort := h.short
  have hpos := Nat.pos_of_ne_zero hdelim
  obtain ⟨found, hfound, hiff⟩ :=
    strchrLoop_holds h hc 0x100000000 (i := 0) hpos (Nat.zero_le _) (by omega)
  rw [List.drop_zero] at hiff
  refine ⟨found, hfound, ?_⟩
  rw [Bool.eq_iff_iff, bne_iff_ne, hiff, isDelim, decide_eq_true_iff]

/-- A loop runs over the characters for which it stays. -/
theorem scanDelims_holds (h : HoldsString m str s) {stay q : Nat → Bool}
    (hstay : ∀ c ∈ s, ∃ found, strchr m delim c = some found ∧ stay found = q c) (fuel : Nat)
    {i : Nat} (hi : i ≤ s.length) (hfuel : s.length - i < fuel) :
    scanDelims m delim stay fuel (str + i) =
      some (str + (i + ((s.drop i).takeWhile q).length)) := by
  induction fuel generalizing i with
  | zero => exact absurd hfuel (Nat.not_lt_zero _)
  | succ fuel ih =>
    rw [scanDelims]
    cases hdrop : s.drop i with
    | nil =>
      rw [h.read_drop_nil hi hdrop, if_neg (by decide)]
      rfl
    | cons c rest =>
      obtain ⟨hlt, hread, hrest⟩ := h.read_drop hdrop
      have hmem : c ∈ s := List.mem_of_mem_drop (i := i) (by rw [hdrop]; exact List.mem_cons_self)
      obtain ⟨found, hfound, hq⟩ := hstay c hmem
      rw [if_pos (h.read_ne hlt), hread, hfound, Option.bind_eq_bind, Option.bind_some, hq]
      by_cases hc : q c = true
      · rw [if_pos hc, Nat.add_assoc, ih hlt (by omega), hrest, List.takeWhile_cons_of_pos hc,
          List.length_cons]
        exact congrArg some (by omega)
      · rw [if_neg hc, List.takeWhile_cons_of_neg hc]
        rfl

theorem skipDelims_holds (h : HoldsString m str s) (hd : HoldsString m delim d) (hdelim : delim ≠ 0)
    {i : Nat} (hi : i ≤ s.length) : skipDelims m delim (str + i) =
      some (str + (i + ((s.drop i).takeWhile (isDelim d)).length)) := by
  have hshort := h.short
  refine scanDelims_holds h (fun c hc => ?_) _ hi (by omega)
  exact strchr_holds hd hdelim (h.nonzero c hc)

theorem skipToken_holds (h : HoldsString m str s) (hd : HoldsString m delim d) (hdelim : delim ≠ 0)
    {i : Nat} (hi : i ≤ s.length) : skipToken m delim (str + i) =
      some (str + (i + ((s.drop i).takeWhile fun c => !isDelim d c).length)) := by
  have hshort := h.short
  refine scanDelims_holds h (fun c hc => ?_) _ hi (by omega)
  obtain ⟨found, hfound, heq⟩ := strchr_holds hd hdelim (h.nonzero c hc)
  refine ⟨found, hfound, ?_⟩
  rw [← heq, bne, Bool.not_not]

/-! ## The copy -/

/-- The copy of bytes that do not lie in the destination. -/
theorem memcpy_eq_writeBytes (m : Memory) {dest src : Nat} {t : List Nat}
    (hapart : Apart dest src t.length) (hfits : dest + t.length ≤ 0x100000000)
    (hread : ∀ i (hi : i < t.length), m.read8 (src + i) = t[i]) :
    memcpy m dest src t.length = m.writeBytes dest t := by
  induction t using List.reverseRecOn with
  | nil => rfl
  | append_singleton t c ih =>
    have hlen : (t ++ [c]).length = t.length + 1 := List.length_append
    rw [hlen] at hapart hfits ⊢
    have hbefore := ih (fun i hi j hj => hapart i (by omega) j (by omega)) (by omega)
      fun i hi => by rw [hread i (by omega), List.getElem_append_left hi]
    have hlast : (memcpy m dest src t.length).read8 (src + t.length) = c := by
      have hcopy := memcpy_setsExactly m (d := dest) (s := src) (n := t.length) (by omega)
        fun i hi j hj => hapart i (by omega) j (by omega)
      have hsame := hcopy.2 (wrap32 (src + t.length)) fun k hk =>
        hapart k (by omega) t.length (by omega)
      rw [Memory.read8, hsame]
      exact (hread t.length (by omega)).trans (by simp)
    rw [memcpy, hlast, hbefore, writeBytes_append]
    rfl

/-! ## The calls -/

/-- The string and the delimiters, and `size` bytes at `out` that are apart from them. -/
structure TokenBuffer (m : Memory) (str delim out size : Nat) (s d : List Nat) : Prop where
  text : HoldsString m str s
  delims : HoldsString m delim d
  str_ne : str ≠ 0
  delim_ne : delim ≠ 0
  fits : out + size ≤ 0x100000000
  off_text : str + s.length < out ∨ out + size ≤ str
  off_delims : delim + d.length < out ∨ out + size ≤ delim

/-- Only the buffer has been written. -/
theorem TokenBuffer.of_agreeOff (h : TokenBuffer m str delim out size s d)
    (hagree : AgreeOff out (out + size) m m') : TokenBuffer m' str delim out size s d :=
  ⟨h.text.of_agreeOff hagree h.off_text, h.delims.of_agreeOff hagree h.off_delims, h.str_ne,
    h.delim_ne, h.fits, h.off_text, h.off_delims⟩

theorem TokenBuffer.place_ne (h : TokenBuffer m str delim out size s d) (i : Nat) :
    str + i ≠ 0 := by
  have hstr := h.str_ne
  omega

/-- The tokens that the calls to come find, when they go on at `saveptr`. -/
def Remain (str : Nat) (s d : List Nat) (saveptr : Nat) (ts : List (List Nat)) : Prop :=
  (saveptr = 0 ∧ ts = []) ∨ ∃ i, i ≤ s.length ∧ saveptr = str + i ∧
    tokens (isDelim d) (s.drop i) = ts

/-- What a call returns and leaves behind when the tokens `ts` remain. -/
structure TokenReturned (m : Memory) (str out size : Nat) (s d : List Nat) (ts : List (List Nat))
    (r : Nat) (st' : StrtokState) : Prop where
  agree : AgreeOff out (out + size) m st'.mem
  remain : Remain str s d st'.saveptr ts.tail
  token : ∀ t ∈ ts.head?, r = out ∧ HoldsString st'.mem out t
  null : ts = [] → r = 0

/-- The token in front is copied. -/
theorem strtok_copy (h : TokenBuffer m str delim out size s d) {t r : List Nat} {i : Nat}
    (hdrop : s.drop i = t ++ r) (hsize : t.length < size) :
    let m' := (memcpy m out (str + i) t.length).write8 (out + t.length) 0
    AgreeOff out (out + size) m m' ∧ HoldsString m' out t := by
  have hfits := h.fits
  have htext := h.text.fits
  have hshort := h.text.short
  have hoff := h.off_text
  have hlen := congrArg List.length hdrop
  rw [List.length_drop, List.length_append] at hlen
  have hread : ∀ k (hk : k < t.length), m.read8 (str + i + k) = t[k] := fun k hk => by
    have hget : s[i + k]? = some t[k] := by
      rw [← List.getElem?_drop, hdrop, List.getElem?_append_left hk, List.getElem?_eq_getElem hk]
    obtain ⟨hlt, hval⟩ := List.getElem?_eq_some_iff.mp hget
    rw [Nat.add_assoc, h.text.chars _ hlt, hval]
  have hapart : Apart out (str + i) t.length := fun j hj k hk => by
    rw [wrap32_of_lt (by omega), wrap32_of_lt (by omega)]
    omega
  have hbytes : ∀ c ∈ t, 0 < c ∧ c < 0x100 := fun c hc => by
    have hmem : c ∈ s := by
      refine List.mem_of_mem_drop (i := i) ?_
      rw [hdrop]
      exact List.mem_append_left r hc
    exact ⟨Nat.pos_of_ne_zero (h.text.nonzero c hmem), h.text.lt hmem⟩
  have hwrite : (memcpy m out (str + i) t.length).write8 (out + t.length) 0 =
      m.writeBytes out (t ++ [0]) := by
    rw [memcpy_eq_writeBytes m hapart (by omega) hread, writeBytes_append]
    rfl
  intro m'
  have hm' : m' = m.writeBytes out (t ++ [0]) := hwrite
  rw [hm']
  have hagree := agreeOff_writeBytes m (a := out) (l := t ++ [0]) (by simp; omega)
  exact ⟨hagree.mono (Nat.le_refl _) (by simp; omega),
    writeBytes_holdsString m hbytes (by omega) (by omega)⟩

/-- A call that finds a token in front of the rest of the string. -/
theorem strtok_found (h : TokenBuffer st.mem str delim out size s d) {arg i : Nat}
    (hi : i ≤ s.length) (hptr : (if arg ≠ 0 then arg else st.saveptr) = str + i) {j : Nat}
    {t r : List Nat} (hj : j < s.length)
    (hskip : skipDelims st.mem delim (str + i) = some (str + j))
    (hscan : skipToken st.mem delim (str + j) = some (str + (j + t.length)))
    (hdrop : s.drop j = t ++ r) (hsize : t.length < size) :
    ∃ st', strtok st arg delim out = some (out, st') ∧
      AgreeOff out (out + size) st.mem st'.mem ∧ HoldsString st'.mem out t ∧
      st'.saveptr = if r = [] then 0 else str + (j + t.length + 1) := by
  have htext := h.text.fits
  have hshort := h.text.short
  have hfits := h.fits
  have hne := h.place_ne i
  have hlen := congrArg List.length hdrop
  rw [List.length_drop, List.length_append] at hlen
  have hstop : (((out : Int) + (t.length : Int)) % 0x100000000).toNat = out + t.length := by
    rw [Int.emod_eq_of_lt (by omega) (by omega), ← Int.natCast_add, Int.toNat_natCast]
  obtain ⟨hagree, hholds⟩ := strtok_copy h hdrop hsize
  generalize hm' : (memcpy st.mem out (str + j) t.length).write8 (out + t.length) 0 = m' at *
  have htext' := h.text.of_agreeOff hagree h.off_text
  have hbehind : s.drop (j + t.length) = r := by
    rw [← List.drop_drop, hdrop, List.drop_left]
  have hsave : (if m'.read8 (str + (j + t.length)) ≠ 0 then str + (j + t.length) + 1 else 0) =
      if r = [] then 0 else str + (j + t.length + 1) := by
    cases r with
    | nil =>
      rw [htext'.read_drop_nil (by omega) hbehind]
      rfl
    | cons c r =>
      obtain ⟨hlt, -, -⟩ := htext'.read_drop hbehind
      rw [if_pos (htext'.read_ne hlt)]
      rfl
  -- not before, since `omega` would look into the signed reading
  have hsub : toInt32 (sub32 (str + (j + t.length)) (str + j)) = t.length := by
    rw [sub32_of_le (by omega) (by omega), toInt32, if_pos (by omega)]
    omega
  refine ⟨⟨m', if r = [] then 0 else str + (j + t.length + 1)⟩, ?_, hagree, hholds, rfl⟩
  simp only [strtok, hptr, if_neg hne, hskip, hscan, hsub, Int.toNat_natCast, hstop, hm', hsave,
    Option.bind_eq_bind, Option.bind_some, if_neg (h.text.read_ne hj)]

/-- **One call**: it returns the first token that remains, and those behind it remain. -/
theorem strtok_step (h : TokenBuffer st.mem str delim out size s d) {arg : Nat}
    (hremain : Remain str s d (if arg ≠ 0 then arg else st.saveptr) ts)
    (hsize : ∀ t ∈ ts, t.length < size) :
    ∃ r st', strtok st arg delim out = some (r, st') ∧
      TokenReturned st.mem str out size s d ts r st' := by
  rcases hremain with ⟨hptr, rfl⟩ | ⟨i, hi, hptr, rfl⟩
  · refine ⟨0, { st with saveptr := 0 }, ?_, AgreeOff.refl _ _ _, .inl ⟨rfl, rfl⟩, by simp,
      fun _ => rfl⟩
    simp only [strtok, hptr, if_pos]
  -- the first character that is no delimiter
  have hne := h.place_ne i
  have hskip := skipDelims_holds h.text h.delims h.delim_ne hi
  have hfront := drop_add_takeWhile (isDelim d) s i
  have hj : i + ((s.drop i).takeWhile (isDelim d)).length ≤ s.length := by
    have hle := (List.takeWhile_prefix (l := s.drop i) (isDelim d)).length_le
    rw [List.length_drop] at hle
    omega
  generalize i + ((s.drop i).takeWhile (isDelim d)).length = j at hskip hfront hj
  by_cases hend : s.drop j = []
  · have hnone := tokens_eq_nil (hfront.symm.trans hend)
    rw [hnone]
    refine ⟨0, { st with saveptr := str + i }, ?_, AgreeOff.refl _ _ _, .inr ⟨i, hi, rfl, hnone⟩,
      by simp, fun _ => rfl⟩
    simp only [strtok, hptr, if_neg hne, hskip, h.text.read_drop_nil hj hend, if_pos,
      Option.bind_eq_bind, Option.bind_some]
  · have hlt : j < s.length := by
      by_contra hge
      exact hend (List.drop_eq_nil_of_le (Nat.le_of_not_lt hge))
    have htokens := tokens_eq_cons (hfront ▸ hend)
    rw [← hfront] at htokens
    rw [htokens] at hsize ⊢
    have hbehind := drop_add_takeWhile (fun c => !isDelim d c) s j
    obtain ⟨st', hcall, hagree, hholds, hsave⟩ := strtok_found h hi hptr hlt hskip
      (skipToken_holds h.text h.delims h.delim_ne hj) List.takeWhile_append_dropWhile.symm
      (hsize _ List.mem_cons_self)
    refine ⟨out, st', hcall, hagree, ?_, fun t ht => ?_, fun hnil => by cases hnil⟩
    · rw [hsave, List.tail_cons, ← hbehind]
      split
      · rename_i hnil
        rw [hnil]
        exact .inl ⟨rfl, rfl⟩
      · rename_i hmore
        refine .inr ⟨_, ?_, rfl, ?_⟩
        · by_contra hge
          exact hmore (List.drop_eq_nil_of_le (by omega))
        · rw [← List.drop_drop, List.drop_one]
    · rw [← Option.some_inj.mp ht]
      exact ⟨rfl, hholds⟩

/-- Each call finds the tokens that the calls before it have left. -/
theorem strtokCalls_returned (h : TokenBuffer st.mem str delim out size s d)
    (hsize : ∀ t ∈ tokens (isDelim d) s, t.length < size) (n : Nat) :
    ∃ r st', strtokCalls st str delim out n = some (r, st') ∧
      TokenReturned st.mem str out size s d ((tokens (isDelim d) s).drop n) r st' := by
  induction n with
  | zero =>
    refine strtok_step h ?_ hsize
    rw [if_pos h.str_ne]
    exact .inr ⟨0, Nat.zero_le _, rfl, rfl⟩
  | succ n ih =>
    obtain ⟨r, st₁, hcalls, hreturned⟩ := ih
    have hremain : Remain str s d (if (0 : Nat) ≠ 0 then 0 else st₁.saveptr)
        ((tokens (isDelim d) s).drop (n + 1)) := by
      rw [if_neg (not_not.mpr rfl), ← List.tail_drop]
      exact hreturned.remain
    obtain ⟨r', st', hcall, hnext⟩ := strtok_step (h.of_agreeOff hreturned.agree) hremain
      fun t ht => hsize t (List.mem_of_mem_drop ht)
    refine ⟨r', st', ?_, hreturned.agree.trans hnext.agree, hnext.remain, hnext.token, hnext.null⟩
    rw [strtokCalls, hcalls]
    exact hcall

/-- **What `strtok` returns**: the tokens of the string, one for each call, and a null pointer from
then on. The string is as it was, and nothing outside the buffer is written. -/
theorem strtok_tokens (h : TokenBuffer st.mem str delim out size s d)
    (hsize : ∀ t ∈ tokens (isDelim d) s, t.length < size) :
    IsTokens (isDelim d) s (tokens (isDelim d) s) ∧
      ∀ n, ∃ r st', strtokCalls st str delim out n = some (r, st') ∧
        HoldsString st'.mem str s ∧ AgreeOff out (out + size) st.mem st'.mem ∧
        (∀ t ∈ (tokens (isDelim d) s)[n]?, r = out ∧ HoldsString st'.mem out t) ∧
        ((tokens (isDelim d) s).length ≤ n → r = 0) := by
  refine ⟨tokens_isTokens _ s, fun n => ?_⟩
  obtain ⟨r, st', hcalls, hreturned⟩ := strtokCalls_returned h hsize n
  refine ⟨r, st', hcalls, h.text.of_agreeOff hreturned.agree h.off_text, hreturned.agree,
    fun t ht => hreturned.token t ?_, fun hle => hreturned.null (List.drop_eq_nil_of_le hle)⟩
  rwa [List.head?_drop]

/-- `",a,,bc,"`, cut at the commas. -/
theorem strtok_tokens_commas :
    let s := [44, 97, 44, 44, 98, 99, 44]
    let m := (Memory.writeBytes (fun _ => 0) 0x1000 (s ++ [0])).writeBytes 0x2000 ([44] ++ [0])
    let st := StrtokState.mk m 0
    IsTokens (isDelim [44]) s (tokens (isDelim [44]) s) ∧
      ∀ n, ∃ r st', strtokCalls st 0x1000 0x2000 0x3000 n = some (r, st') ∧
        HoldsString st'.mem 0x1000 s ∧ AgreeOff 0x3000 (0x3000 + 3) st.mem st'.mem ∧
        (∀ t ∈ (tokens (isDelim [44]) s)[n]?, r = 0x3000 ∧ HoldsString st'.mem 0x3000 t) ∧
        ((tokens (isDelim [44]) s).length ≤ n → r = 0) := by
  intro s m st
  have htext : HoldsString (Memory.writeBytes (fun _ => 0) 0x1000 (s ++ [0])) 0x1000 s :=
    writeBytes_holdsString _ (by decide) (by decide) (by decide)
  have hdelims : HoldsString m 0x2000 [44] :=
    writeBytes_holdsString _ (by decide) (by decide) (by decide)
  have htext : HoldsString m 0x1000 s :=
    htext.of_agreeOff (agreeOff_writeBytes _ (by decide)) (by decide)
  exact strtok_tokens ⟨htext, hdelims, by decide, by decide, by decide, by decide, by decide⟩
    (by decide)

end Xylophone
