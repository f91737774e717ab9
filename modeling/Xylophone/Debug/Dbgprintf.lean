import Xylophone.Strings.Conversions

/-!
# `dbgprintf`

The output is collected in a buffer of 512 bytes, which is sent when it is nearly full. The test for
that comes after every piece of output but a string.

A store outside the buffer and a step beyond the NUL of the format end the run. The text of a `double`
is part of the argument, since floating-point numbers are not modelled.

* `put_ok`, `emit_ok` — when a piece of output can be stored
* `dbgprintf_safe_iff` — the formats and arguments that are safe
* `exists_buffer_overflow` — a long string
-/

namespace Xylophone

open Infra

/-! ## The buffer -/

/-- `BUFFER_SIZE` -/
def bufferSize : Nat := 512

/-- What ends a run. -/
inductive DbgFault where
  /-- a store outside the buffer -/
  | buffer
  /-- a read behind the NUL of the format -/
  | format
  /-- an argument of another type -/
  | arguments
deriving DecidableEq

/-- The characters in `buffer`, of which there are `buffer_index`, and what has been sent. -/
structure DbgBuffer where
  chars : List Nat
  printed : List (List Nat)
  fits : chars.length ≤ bufferSize

namespace DbgBuffer

/-- `buffer[buffer_index++] = c` -/
def store (s : DbgBuffer) (c : Nat) : Except DbgFault DbgBuffer :=
  if h : s.chars.length < bufferSize then
    .ok { s with
      chars := s.chars ++ [c]
      fits := by
        rw [List.length_append]
        exact h }
  else .error .buffer

/-- `append_to_buffer`, and the loop that pads. -/
def put (s : DbgBuffer) (text : List Nat) : Except DbgFault DbgBuffer := text.foldlM store s

/-- `buffer[buffer_index] = '\0'; serial_print(buffer); buffer_index = 0;` -/
def print (s : DbgBuffer) : Except DbgFault DbgBuffer :=
  if s.chars.length < bufferSize then
    .ok { chars := [], printed := s.printed ++ [s.chars], fits := Nat.zero_le _ }
  else .error .buffer

/-- The flush at the end of a turn. -/
def flush (s : DbgBuffer) : Except DbgFault DbgBuffer :=
  if bufferSize - 64 ≤ s.chars.length then s.print else .ok s

/-- A piece of output that is not a string. -/
def emit (s : DbgBuffer) (text : List Nat) : Except DbgFault DbgBuffer := do
  let s ← s.put text
  s.flush

end DbgBuffer

/-! ## Directives -/

/-- An argument: a word (a number, a pointer or a character), a string, or a `double` with the text
that `ftoa` makes of it. -/
inductive DbgArg where
  | word (n : Nat)
  | string (s : List Nat)
  | double (text : List Nat)

/-- The loop over the digits of the width. -/
def parseWidth : (ptr : List Nat) → (width : Int) → List Nat × Int
  | [], width => ([], width)
  | c :: ptr, width =>
    if isdigit c then parseWidth ptr (int32 (width * 10 + (c - 48))) else (c :: ptr, width)

/-- The flag, the width, and the format from the conversion character on. -/
structure DirectiveHead where
  zeroPad : Bool
  width : Int
  ptr : List Nat

/-- What stands between `%` and the conversion character. -/
def parseDirective (ptr : List Nat) : DirectiveHead :=
  let zeroPad := ptr.head? == some 48
  let ptr := if zeroPad then ptr.tail else ptr
  let (ptr, width) := parseWidth ptr 0
  ⟨zeroPad, width, ptr⟩

/-- The padding in front of a text, and the text. -/
def paddedText (zeroPad : Bool) (width : Int) (text : List Nat) : List Nat :=
  List.replicate (width - text.length).toNat (if zeroPad then 48 else 32) ++ text

/-- The characters that `uitoa` writes in front of the NUL. -/
def uitoaText (num base : Nat) : Option (List Nat) := (uitoaLoop base 33 num []).map List.reverse

/-- The text of a conversion, and the arguments that are left. -/
def fetch (conv : Nat) (args : List DbgArg) : Option (List Nat × List DbgArg) :=
  if conv = 'd'.toNat ∨ conv = 'i'.toNat then
    match args with
    | .word n :: args => some ((itoaText (toInt32 n) 10).getD [], args)
    | _ => none
  else if conv = 'D'.toNat ∨ conv = 'u'.toNat then
    match args with
    | .word n :: args => some ((uitoaText n 10).getD [], args)
    | _ => none
  else if conv = 'x'.toNat then
    match args with
    | .word n :: args => some ((itoaText (toInt32 n) 16).getD [], args)
    | _ => none
  else if conv = 'X'.toNat then
    match args with
    | .word n :: args => some ((uitoaText n 16).getD [], args)
    | _ => none
  else if conv = 'p'.toNat then
    match args with
    | .word n :: args => some (48 :: 120 :: (uitoaText n 16).getD [], args)
    | _ => none
  else if conv = 'c'.toNat then
    match args with
    | .word n :: args => some (if n % 0x100 = 0 then [] else [n % 0x100], args)
    | _ => none
  else if conv = 's'.toNat then
    match args with
    | .string s :: args => some (s, args)
    | _ => none
  else if conv = 'f'.toNat then
    match args with
    | .double text :: args => some (text, args)
    | _ => none
  else if conv = '%'.toNat then some (['%'.toNat], args)
  else some (['%'.toNat, conv], args)

theorem parseWidth_length (ptr : List Nat) (width : Int) :
    (parseWidth ptr width).1.length ≤ ptr.length := by
  induction ptr generalizing width with
  | nil => exact Nat.le_refl _
  | cons c ptr ih =>
    rw [parseWidth]
    split
    · exact Nat.le_succ_of_le (ih _)
    · exact Nat.le_refl _

theorem parseDirective_length (ptr : List Nat) : (parseDirective ptr).ptr.length ≤ ptr.length := by
  have hlen := parseWidth_length (if ptr.head? == some 48 then ptr.tail else ptr) 0
  refine hlen.trans ?_
  split
  · simp
  · exact Nat.le_refl _

/-- The format behind a conversion is shorter. -/
theorem parseDirective_tail {c conv : Nat} {rest rest' : List Nat}
    (h : (parseDirective rest).ptr = conv :: rest') : rest'.length < (c :: rest).length := by
  have hlen := parseDirective_length rest
  rw [h, List.length_cons] at hlen
  rw [List.length_cons]
  omega

/-! ## The loop -/

/-- The loop of `dbgprintf`, from `ptr` on. -/
def dbgprintfLoop (ptr : List Nat) (args : List DbgArg) (s : DbgBuffer) :
    Except DbgFault DbgBuffer :=
  match ptr with
  | [] => s.print
  | c :: rest =>
    if c = '%'.toNat then
      match _h : (parseDirective rest).ptr with
      | [] => do
        -- the default of the switch stores "%", and `++ptr` leaves the NUL behind
        let _ ← s.emit (paddedText (parseDirective rest).zeroPad (parseDirective rest).width ['%'.toNat])
        .error .format
      | conv :: rest' =>
        match fetch conv args with
        | none => .error .arguments
        | some (text, args) =>
          if conv = 's'.toNat then do
            let s ← s.put text
            dbgprintfLoop rest' args s
          else do
            let s ← s.emit (paddedText (parseDirective rest).zeroPad (parseDirective rest).width text)
            dbgprintfLoop rest' args s
    else do
      let s ← s.emit [c]
      dbgprintfLoop rest args s
termination_by ptr.length
decreasing_by
  · exact parseDirective_tail _h
  · exact parseDirective_tail _h
  · exact Nat.lt_succ_self _

/-- `dbgprintf` -/
def dbgprintf (isInitialized : Bool) (format : List Nat) (args : List DbgArg) :
    Except DbgFault DbgBuffer :=
  let s : DbgBuffer := ⟨[], [], Nat.zero_le _⟩
  if !isInitialized then .ok s else dbgprintfLoop format args s

variable {s s' : DbgBuffer} {text ptr : List Nat} {args : List DbgArg} {conv : Nat}

/-! ## What fits -/

/-- What a turn of the loop puts out. -/
inductive Directive where
  | char (c : Nat)
  | conversion (zeroPad : Bool) (width : Int) (conv : Nat)

/-- The directives of a format, and whether it ends behind the last of them. -/
def directives (ptr : List Nat) : List Directive × Bool :=
  match ptr with
  | [] => ([], true)
  | c :: rest =>
    if c = '%'.toNat then
      match _h : (parseDirective rest).ptr with
      | [] => ([], false)
      | conv :: rest' =>
        let tail := directives rest'
        (.conversion (parseDirective rest).zeroPad (parseDirective rest).width conv :: tail.1, tail.2)
    else
      let tail := directives rest
      (.char c :: tail.1, tail.2)
termination_by ptr.length
decreasing_by
  · exact parseDirective_tail _h
  · exact Nat.lt_succ_self _

/-- The arguments have the types that the directives ask for. -/
def MatchesArgs : List Directive → List DbgArg → Prop
  | [], _ => True
  | .char _ :: ds, args => MatchesArgs ds args
  | .conversion _ _ conv :: ds, args => ∃ text args', fetch conv args = some (text, args') ∧
      MatchesArgs ds args'

/-- The count after the test at the end of a turn. -/
def afterFlush (count : Nat) : Nat := if bufferSize - 64 ≤ count then 0 else count

/-- No piece of output brings the count of characters since the last flush to the size of the
buffer. -/
def FitsBuffer : (count : Nat) → List Directive → List DbgArg → Prop
  | count, [], _ => count < bufferSize
  | count, .char _ :: ds, args => count + 1 < bufferSize ∧ FitsBuffer (afterFlush (count + 1)) ds args
  | count, .conversion zeroPad width conv :: ds, args => ∃ text args',
      fetch conv args = some (text, args') ∧
      if conv = 's'.toNat then FitsBuffer (count + text.length) ds args'
      else count + (paddedText zeroPad width text).length < bufferSize ∧
        FitsBuffer (afterFlush (count + (paddedText zeroPad width text).length)) ds args'

/-- A piece fits only when there is room for a NUL behind it. -/
theorem FitsBuffer.lt {ds : List Directive} {count : Nat} (h : FitsBuffer count ds args) :
    count < bufferSize := by
  induction ds generalizing count args with
  | nil => exact h
  | cons d ds ih =>
    cases d with
    | char c => exact Nat.lt_of_succ_lt h.1
    | conversion zeroPad width conv =>
      obtain ⟨text, args', -, hrest⟩ := h
      split at hrest
      · exact Nat.lt_of_le_of_lt (Nat.le_add_right _ _) (ih hrest)
      · exact Nat.lt_of_le_of_lt (Nat.le_add_right _ _) hrest.1

/-! ## What is stored -/

theorem put_cons (s : DbgBuffer) (c : Nat) (text : List Nat) :
    s.put (c :: text) = (s.store c).bind fun s => s.put text := rfl

/-- A text that fits is stored. -/
theorem put_ok (h : s.chars.length + text.length ≤ bufferSize) :
    ∃ s', s.put text = .ok s' ∧ s'.chars.length = s.chars.length + text.length := by
  induction text generalizing s with
  | nil => exact ⟨s, rfl, rfl⟩
  | cons c text ih =>
    rw [List.length_cons] at h
    have hstore : s.chars.length < bufferSize := by omega
    rw [put_cons, DbgBuffer.store, dif_pos hstore]
    have hnext : (s.chars ++ [c]).length + text.length ≤ bufferSize := by simp; omega
    obtain ⟨s', hput, hlen⟩ := @ih ⟨s.chars ++ [c], s.printed, by simp; omega⟩ hnext
    refine ⟨s', hput, ?_⟩
    rw [hlen]
    simp
    omega

/-- One that does not ends the run. -/
theorem put_error (h : ¬s.chars.length + text.length ≤ bufferSize) :
    s.put text = .error .buffer := by
  induction text generalizing s with
  | nil => exact absurd s.fits h
  | cons c text ih =>
    rw [put_cons, DbgBuffer.store]
    split
    · refine ih ?_
      simp at h ⊢
      omega
    · rfl

/-- A piece that is not a string needs room for a NUL when the buffer is flushed. -/
theorem emit_ok (h : s.chars.length + text.length < bufferSize) :
    ∃ s', s.emit text = .ok s' ∧ s'.chars.length = afterFlush (s.chars.length + text.length) := by
  obtain ⟨s₁, hput, hlen⟩ := put_ok h.le
  have hflush : s.emit text = s₁.flush := by
    rw [DbgBuffer.emit, hput]
    rfl
  rw [hflush, DbgBuffer.flush, ← hlen, afterFlush]
  split
  · rw [DbgBuffer.print, if_pos (hlen ▸ h)]
    exact ⟨_, rfl, rfl⟩
  · exact ⟨s₁, rfl, rfl⟩

theorem emit_error (h : ¬s.chars.length + text.length < bufferSize) :
    s.emit text = .error .buffer := by
  by_cases hput : s.chars.length + text.length ≤ bufferSize
  · obtain ⟨s₁, hs₁, hlen⟩ := put_ok hput
    have hflush : s.emit text = s₁.flush := by
      rw [DbgBuffer.emit, hs₁]
      rfl
    rw [hflush, DbgBuffer.flush, if_pos (by omega), DbgBuffer.print, if_neg (hlen ▸ h)]
  · rw [DbgBuffer.emit, put_error hput]
    rfl

/-! ## The turns of the loop -/

section Turns

variable {c : Nat} {rest rest' : List Nat}

theorem dbgprintfLoop_char (hc : c ≠ '%'.toNat) (args : List DbgArg) (s : DbgBuffer) :
    dbgprintfLoop (c :: rest) args s = (s.emit [c]).bind (dbgprintfLoop rest args) := by
  rw [dbgprintfLoop, if_neg hc]
  rfl

theorem directives_char (hc : c ≠ '%'.toNat) :
    directives (c :: rest) = (.char c :: (directives rest).1, (directives rest).2) := by
  rw [directives, if_neg hc]

theorem dbgprintfLoop_end
    (h : (parseDirective rest).ptr = []) (args : List DbgArg) (s : DbgBuffer) :
    ∀ s', dbgprintfLoop ('%'.toNat :: rest) args s ≠ .ok s' := by
  rw [dbgprintfLoop, if_pos rfl]
  split
  · intro s' hs'
    cases hemit : s.emit (paddedText (parseDirective rest).zeroPad (parseDirective rest).width
        ['%'.toNat]) with
    | error e =>
      rw [hemit] at hs'
      cases hs'
    | ok s₁ =>
      rw [hemit] at hs'
      cases hs'
  · simp_all

theorem directives_end (h : (parseDirective rest).ptr = []) :
    directives ('%'.toNat :: rest) = ([], false) := by
  rw [directives, if_pos rfl]
  split
  · rfl
  · simp_all

theorem directives_conversion (h : (parseDirective rest).ptr = conv :: rest') :
    directives ('%'.toNat :: rest) =
      (.conversion (parseDirective rest).zeroPad (parseDirective rest).width conv ::
        (directives rest').1, (directives rest').2) := by
  rw [directives, if_pos rfl]
  split
  · simp_all
  · simp_all

theorem dbgprintfLoop_conversion (h : (parseDirective rest).ptr = conv :: rest')
    {args' : List DbgArg} (hfetch : fetch conv args = some (text, args')) (s : DbgBuffer) :
    dbgprintfLoop ('%'.toNat :: rest) args s =
      if conv = 's'.toNat then (s.put text).bind (dbgprintfLoop rest' args')
      else (s.emit (paddedText (parseDirective rest).zeroPad (parseDirective rest).width text)).bind
        (dbgprintfLoop rest' args') := by
  rw [dbgprintfLoop, if_pos rfl]
  split
  · simp_all
  · rename_i hptr
    rw [h] at hptr
    cases hptr
    simp only [hfetch]
    rfl

end Turns

/-- **The loop goes through** exactly when the format ends behind a directive and all output fits. -/
theorem dbgprintfLoop_ok_iff (hmatch : MatchesArgs (directives ptr).1 args) :
    (∃ s', dbgprintfLoop ptr args s = .ok s') ↔
      (directives ptr).2 = true ∧ FitsBuffer s.chars.length (directives ptr).1 args := by
  induction hn : ptr.length using Nat.strong_induction_on generalizing ptr args s with
  | _ n ih =>
    subst hn
    -- a piece that is flushed afterwards, and the rest of the format
    have hpiece : ∀ (text rest : List Nat) (args' : List DbgArg), rest.length < ptr.length →
        MatchesArgs (directives rest).1 args' →
        ((∃ s', (s.emit text).bind (dbgprintfLoop rest args') = .ok s') ↔
          (directives rest).2 = true ∧ s.chars.length + text.length < bufferSize ∧
            FitsBuffer (afterFlush (s.chars.length + text.length)) (directives rest).1 args') := by
      intro text rest args' hlt hrest
      by_cases hfits : s.chars.length + text.length < bufferSize
      · obtain ⟨s₁, hemit, hlen⟩ := emit_ok hfits
        rw [hemit, ← hlen]
        exact (ih _ hlt hrest rfl).trans (by simp [hfits])
      · rw [emit_error hfits]
        exact iff_of_false (fun ⟨s', hs'⟩ => by cases hs') fun hall => hfits hall.2.1
    cases ptr with
    | nil =>
      rw [dbgprintfLoop, directives, DbgBuffer.print]
      split
      · exact iff_of_true ⟨_, rfl⟩ ⟨rfl, ‹_›⟩
      · exact iff_of_false (fun ⟨s', hs'⟩ => by cases hs') fun hall => ‹¬_› hall.2
    | cons c rest =>
      by_cases hc : c = '%'.toNat
      · subst hc
        cases hptr : (parseDirective rest).ptr with
        | nil =>
          rw [directives_end hptr]
          exact iff_of_false (fun ⟨s', hs'⟩ => dbgprintfLoop_end hptr args s s' hs')
            fun hall => Bool.false_ne_true hall.1
        | cons conv rest' =>
          have hlt := parseDirective_tail (c := '%'.toNat) hptr
          rw [directives_conversion hptr] at hmatch ⊢
          obtain ⟨text, args', hfetch, hrest⟩ := hmatch
          rw [dbgprintfLoop_conversion hptr hfetch]
          have honly : ∀ P : List Nat → List DbgArg → Prop,
              (∃ text' args'', fetch conv args = some (text', args'') ∧ P text' args'') ↔
                P text args' := by
            intro P
            rw [hfetch]
            simp
          simp only [FitsBuffer, honly]
          by_cases hs : conv = 's'.toNat
          · simp only [if_pos hs]
            by_cases hfits : s.chars.length + text.length ≤ bufferSize
            · obtain ⟨s₁, hput, hlen⟩ := put_ok hfits
              rw [hput, ← hlen]
              exact ih _ hlt hrest rfl
            · rw [put_error hfits]
              exact iff_of_false (fun ⟨s', hs'⟩ => by cases hs') fun hall =>
                hfits hall.2.lt.le
          · simp only [if_neg hs]
            exact hpiece _ rest' args' hlt hrest
      · rw [directives_char hc] at hmatch ⊢
        rw [dbgprintfLoop_char hc]
        exact hpiece [c] rest args (Nat.lt_succ_self _) hmatch

/-- **The formats and arguments that are safe**: the port is not ready, or the format does not end in
a directive and the output fits between two flushes. -/
theorem dbgprintf_safe_iff (isInitialized : Bool) {format : List Nat}
    (hmatch : MatchesArgs (directives format).1 args) :
    (∃ s', dbgprintf isInitialized format args = .ok s') ↔
      isInitialized = false ∨
        ((directives format).2 = true ∧ FitsBuffer 0 (directives format).1 args) := by
  cases isInitialized with
  | false => exact iff_of_true ⟨_, rfl⟩ (Or.inl rfl)
  | true =>
    have hloop := dbgprintfLoop_ok_iff (s := ⟨[], [], Nat.zero_le _⟩) hmatch
    rw [dbgprintf]
    simpa using hloop

/-- The format "a%5d" and the number 7: six characters. -/
theorem dbgprintf_safe_iff_number :
    FitsBuffer 0 (directives [97, 37, 53, 100]).1 [.word 7] ∧
      ∃ s', dbgprintf true [97, 37, 53, 100] [.word 7] = .ok s' := by
  have hdirectives : directives [97, 37, 53, 100] = ([.char 97, .conversion false 5 100], true) := by
    have hconv : directives [37, 53, 100] = ([.conversion false 5 100], true) := by
      have hconv := directives_conversion (rfl : (parseDirective [53, 100]).ptr = 100 :: [])
      rwa [directives] at hconv
    rw [directives_char (by decide), hconv]
  have hfetch : fetch 100 [.word 7] = some ([55], []) := rfl
  have hmatch : MatchesArgs (directives [97, 37, 53, 100]).1 [.word 7] := by
    rw [hdirectives]
    exact ⟨_, _, hfetch, trivial⟩
  have hfits : FitsBuffer 0 (directives [97, 37, 53, 100]).1 [.word 7] := by
    rw [hdirectives]
    refine ⟨by decide, _, _, hfetch, ?_⟩
    rw [if_neg (by decide)]
    exact ⟨by decide, (by decide : afterFlush (afterFlush (0 + 1) + 5) < bufferSize)⟩
  exact ⟨hfits, (dbgprintf_safe_iff true hmatch).mpr (Or.inr ⟨by rw [hdirectives], hfits⟩)⟩

/-- **A long string**: `dbgprintf("%s", s)` with 600 characters. -/
theorem exists_buffer_overflow :
    ¬ ∀ (isInitialized : Bool) (format : List Nat) (args : List DbgArg),
    MatchesArgs (directives format).1 args → ∃ s', dbgprintf isInitialized format args = .ok s' := by
  intro hall
  have hdirectives : directives [37, 115] = ([.conversion false 0 115], true) := by
    have hconv := directives_conversion (rfl : (parseDirective [115]).ptr = 115 :: [])
    rwa [directives] at hconv
  have hfetch : fetch 115 [.string (List.replicate 600 65)] =
      some (List.replicate 600 65, []) := rfl
  have hmatch : MatchesArgs (directives [37, 115]).1 [.string (List.replicate 600 65)] := by
    rw [hdirectives]
    exact ⟨_, _, hfetch, trivial⟩
  have hok := (dbgprintfLoop_ok_iff (s := ⟨[], [], Nat.zero_le _⟩) hmatch).mp
    (hall true [37, 115] [.string (List.replicate 600 65)] hmatch)
  rw [hdirectives] at hok
  obtain ⟨text, args', htext, hfits⟩ := hok.2
  rw [hfetch, Option.some_inj, Prod.mk.injEq] at htext
  rw [if_pos (by decide), ← htext.1] at hfits
  have hlt := hfits.lt
  rw [List.length_replicate] at hlt
  exact absurd hlt (by decide)

end Xylophone
