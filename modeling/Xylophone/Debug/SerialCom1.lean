import Xylophone.Debug.Dbgprintf
import Xylophone.Infra.SerialPort

/-!
# The first serial port

`dbgprintf` collects its output in a buffer and sends it in several messages, and `serial_write`
waits for the transmitter before every character. What comes out on the line is the text of the
formats all the same, whatever time the transmitter takes.

* `Renders` — the text of a format, without the buffer
* `dbgprintfLoop_flatten` — the messages of a call make up its text
* `kernelSerialCom1Init_ready` — the transmitter after the initialization, whatever it was before
* `calls_on_line` — the texts of all calls, in order
-/

namespace Xylophone

open Infra

/-! ## The source -/

/-- What `kernel_serial_com1_init` writes, at offsets from `COM1_PORT_ADDRESS`. -/
def com1Setup : List (Nat × Nat) :=
  [(1, 0x00), (3, 0x80), (0, 0x03), (1, 0x00), (3, 0x03), (2, 0xC7), (4, 0x0B)]

structure SerialCom1 where
  isInitialized : Bool
  uart : Uart

/-- `kernel_serial_com1_init` -/
def kernelSerialCom1Init (s : SerialCom1) : SerialCom1 :=
  if s.isInitialized then s
  else ⟨true, com1Setup.foldl (fun u access => u.write access.1 access.2) s.uart⟩

/-- `serial_write`, which waits for the bit 0x20 of the line status register. -/
def serialWrite (turns : List Nat) (u : Uart) (c : Nat) : Option (Uart × List Nat) :=
  Uart.polled turns u (c % 0x100)

/-- `serial_print` -/
def serialPrint : (turns : List Nat) → Uart → (str : List Nat) → Option (Uart × List Nat)
  | turns, u, [] => some (u, turns)
  | turns, u, c :: str =>
    if c = 0 then some (u, turns)
    else (serialWrite turns u c).bind fun r => serialPrint r.2 r.1 str

/-- The messages, one after the other. -/
def serialPrints : (turns : List Nat) → Uart → (messages : List (List Nat)) →
    Option (Uart × List Nat)
  | turns, u, [] => some (u, turns)
  | turns, u, str :: messages =>
    (serialPrint turns u str).bind fun r => serialPrints r.2 r.1 messages

/-- A call of `dbgprintf`. -/
structure DbgCall where
  format : List Nat
  args : List DbgArg

namespace SerialCom1

/-- A call of `dbgprintf`, with the turns of all its waits; `none` when it does not come back. When
its messages go out does not matter for the rest of the call. -/
def call (turns : List Nat) (s : SerialCom1) (c : DbgCall) : Option (SerialCom1 × List Nat) :=
  match dbgprintf s.isInitialized c.format c.args with
  | .error _ => none
  | .ok b => (serialPrints turns s.uart b.printed).map fun r => (⟨s.isInitialized, r.1⟩, r.2)

/-- Several of them. -/
def calls : (turns : List Nat) → SerialCom1 → List DbgCall → Option (SerialCom1 × List Nat)
  | turns, s, [] => some (s, turns)
  | turns, s, c :: cs => (s.call turns c).bind fun r => calls r.2 r.1 cs

end SerialCom1

/-! ## The text of a format -/

/-- The characters of a C string: bytes, none of which is the NUL. -/
def IsText (s : List Nat) : Prop := ∀ c ∈ s, 0 < c ∧ c < 0x100

/-- A number in base 10, with a sign. -/
def signedText (v : Int) : List Nat :=
  if v < 0 then 45 :: numeralText 10 v.natAbs else numeralText 10 v.natAbs

/-- The characters that the switch knows. -/
def conversions : List Char := ['d', 'i', 'D', 'u', 'x', 'X', 'p', 'c', 's', 'f', '%']

/-- What a conversion is to print of the arguments in front, and the arguments it leaves. The least
`int` is left out, and so are the numbers that are negative as an `int` in the conversion of `%x`:
`itoa` has no numeral of them. -/
inductive ConversionText : (conv : Nat) → List DbgArg → (text : List Nat) → List DbgArg → Prop
  | signed {conv n args} : conv = 'd'.toNat ∨ conv = 'i'.toNat → n < 0x100000000 →
      n ≠ 0x80000000 → ConversionText conv (.word n :: args) (signedText (toInt32 n)) args
  | unsigned {conv n args} : conv = 'D'.toNat ∨ conv = 'u'.toNat → n < 0x100000000 →
      ConversionText conv (.word n :: args) (numeralText 10 n) args
  | hexInt {n args} : n < 0x80000000 →
      ConversionText 'x'.toNat (.word n :: args) (numeralText 16 n) args
  | hex {n args} : n < 0x100000000 →
      ConversionText 'X'.toNat (.word n :: args) (numeralText 16 n) args
  | pointer {n args} : n < 0x100000000 →
      ConversionText 'p'.toNat (.word n :: args) ([48, 120] ++ numeralText 16 n) args
  | char {n args} : n % 0x100 ≠ 0 → ConversionText 'c'.toNat (.word n :: args) [n % 0x100] args
  | string {s args} : IsText s → ConversionText 's'.toNat (.string s :: args) s args
  | double {text args} : IsText text → ConversionText 'f'.toNat (.double text :: args) text args
  | percent {args} : ConversionText '%'.toNat args ['%'.toNat] args
  | other {conv args} : (∀ c ∈ conversions, conv ≠ c.toNat) →
      ConversionText conv args ['%'.toNat, conv] args

/-- The text of the directives of a format. A string is not padded. -/
inductive Renders : List Directive → List DbgArg → (text : List Nat) → Prop
  | nil {args} : Renders [] args []
  | char {c ds args text} : Renders ds args text → Renders (.char c :: ds) args (c :: text)
  | string {zeroPad width ds args args' s text} : ConversionText 's'.toNat args s args' →
      Renders ds args' text → Renders (.conversion zeroPad width 's'.toNat :: ds) args (s ++ text)
  | conversion {zeroPad width conv ds args args' s text} : conv ≠ 's'.toNat →
      ConversionText conv args s args' → Renders ds args' text →
      Renders (.conversion zeroPad width conv :: ds) args (paddedText zeroPad width s ++ text)

/-- A call that is safe, and its text. -/
structure DbgCall.Prints (c : DbgCall) (text : List Nat) : Prop where
  format : IsText c.format
  complete : (directives c.format).2 = true
  fits : FitsBuffer 0 (directives c.format).1 c.args
  renders : Renders (directives c.format).1 c.args text

variable {conv n : Nat} {args args' : List DbgArg} {ptr text : List Nat} {s s' : DbgBuffer}

/-! ## The conversions -/

theorem uitoaText_eq {base : Nat} (hlow : 2 ≤ base) (hhigh : base ≤ 36) (hn : n < 0x100000000) :
    (uitoaText n base).getD [] = numeralText base n := by
  have hlen := numeralText_length_le hlow hn
  rw [numeralText_length] at hlen
  rw [uitoaText, uitoaLoop_eq hlow hhigh 33 n [] (by omega), Option.map_some, List.nil_append,
    ← List.map_reverse]
  rfl

theorem itoaText_signed (hn : n < 0x100000000) (hleast : n ≠ 0x80000000) :
    (itoaText (toInt32 n) 10).getD [] = signedText (toInt32 n) := by
  unfold toInt32 signedText
  split
  · have htext : itoaText n (10 : Nat) = some (numeralText 10 n) :=
      itoaText_natCast (by decide) (by decide) hn
    rw [Nat.cast_ofNat] at htext
    rw [htext, if_neg (by omega), Int.natAbs_natCast]
    rfl
  · obtain ⟨k, hk⟩ : ∃ k : Nat, n + k = 0x100000000 := ⟨0x100000000 - n, by omega⟩
    have hneg : (n : Int) - 0x100000000 = -(k : Int) := by omega
    rw [hneg, itoaText_neg (by omega) (by omega), if_pos (by omega), Int.natAbs_neg,
      Int.natAbs_natCast]
    rfl

theorem itoaText_hex (hn : n < 0x80000000) :
    (itoaText (toInt32 n) 16).getD [] = numeralText 16 n := by
  have htext : itoaText n (16 : Nat) = some (numeralText 16 n) :=
    itoaText_natCast (by decide) (by decide) (by omega)
  rw [Nat.cast_ofNat] at htext
  rw [toInt32, if_pos hn, htext]
  rfl

/-- **The text of a conversion** is what the switch finds. -/
theorem ConversionText.fetch_eq (h : ConversionText conv args text args') :
    fetch conv args = some (text, args') := by
  cases h with
  | signed hconv hn hleast =>
    rw [← itoaText_signed hn hleast, fetch, if_pos hconv]
  | unsigned hconv hn =>
    have hsigned : ¬(conv = 'd'.toNat ∨ conv = 'i'.toNat) := by
      rcases hconv with rfl | rfl <;> decide
    rw [← uitoaText_eq (by decide) (by decide) hn, fetch, if_neg hsigned, if_pos hconv]
  | hexInt hn =>
    rw [← itoaText_hex hn, fetch, if_neg (by decide), if_neg (by decide), if_pos rfl]
  | hex hn =>
    rw [← uitoaText_eq (by decide) (by decide) hn, fetch, if_neg (by decide), if_neg (by decide),
      if_neg (by decide), if_pos rfl]
  | pointer hn =>
    rw [← uitoaText_eq (by decide) (by decide) hn, fetch, if_neg (by decide), if_neg (by decide),
      if_neg (by decide), if_neg (by decide), if_pos rfl]
    rfl
  | @char n _ hn =>
    rw [fetch, if_neg (by decide), if_neg (by decide), if_neg (by decide), if_neg (by decide),
      if_neg (by decide), if_pos rfl]
    exact congrArg (fun t => some (t, args')) (if_neg hn)
  | string => rfl
  | double => rfl
  | percent => rfl
  | other hconv =>
    rw [fetch.eq_def, if_neg (not_or.mpr ⟨hconv 'd' (by decide), hconv 'i' (by decide)⟩),
      if_neg (not_or.mpr ⟨hconv 'D' (by decide), hconv 'u' (by decide)⟩),
      if_neg (hconv 'x' (by decide)), if_neg (hconv 'X' (by decide)),
      if_neg (hconv 'p' (by decide)), if_neg (hconv 'c' (by decide)),
      if_neg (hconv 's' (by decide)), if_neg (hconv 'f' (by decide)),
      if_neg (hconv '%' (by decide))]

theorem isText_numeralText {base : Nat} (hlow : 1 < base) (hhigh : base ≤ 36) (n : Nat) :
    IsText (numeralText base n) := by
  intro c hc
  obtain ⟨d, hd, rfl⟩ := mem_numeralText hlow hc
  exact ⟨digitChar_pos d, digitChar_lt (by omega)⟩

theorem IsText.cons {c : Nat} (hc : 0 < c ∧ c < 0x100) (h : IsText text) : IsText (c :: text) :=
  List.forall_mem_cons.mpr ⟨hc, h⟩

theorem IsText.append {text' : List Nat} (h : IsText text) (h' : IsText text') :
    IsText (text ++ text') :=
  List.forall_mem_append.mpr ⟨h, h'⟩

theorem isText_paddedText (zeroPad : Bool) (width : Int) (h : IsText text) :
    IsText (paddedText zeroPad width text) := by
  refine IsText.append (fun c hc => ?_) h
  rw [List.eq_of_mem_replicate hc]
  cases zeroPad <;> decide

theorem ConversionText.isText (h : ConversionText conv args text args')
    (hconv : 0 < conv ∧ conv < 0x100) : IsText text := by
  cases h with
  | signed =>
    unfold signedText
    split
    · exact IsText.cons (by decide) (isText_numeralText (by decide) (by decide) _)
    · exact isText_numeralText (by decide) (by decide) _
  | unsigned => exact isText_numeralText (by decide) (by decide) _
  | hexInt => exact isText_numeralText (by decide) (by decide) _
  | hex => exact isText_numeralText (by decide) (by decide) _
  | pointer =>
    exact IsText.cons (by decide) (IsText.cons (by decide)
      (isText_numeralText (by decide) (by decide) _))
  | char hn =>
    exact IsText.cons ⟨Nat.pos_of_ne_zero hn, Nat.mod_lt _ (by decide)⟩ (by simp [IsText])
  | string hs => exact hs
  | double htext => exact htext
  | percent => exact IsText.cons (by decide) (by simp [IsText])
  | other => exact IsText.cons (by decide) (IsText.cons hconv (by simp [IsText]))

/-! ## The directives -/

/-- The characters of a directive come from a string. -/
def Directive.IsText : Directive → Prop
  | .char c => 0 < c ∧ c < 0x100
  | .conversion _ _ conv => 0 < conv ∧ conv < 0x100

theorem parseWidth_subset (ptr : List Nat) (width : Int) : (parseWidth ptr width).1 ⊆ ptr := by
  induction ptr generalizing width with
  | nil => exact List.Subset.refl _
  | cons c ptr ih =>
    rw [parseWidth]
    split
    · exact List.subset_cons_of_subset c (ih _)
    · exact List.Subset.refl _

theorem parseDirective_subset (ptr : List Nat) : (parseDirective ptr).ptr ⊆ ptr := by
  have hsubset := parseWidth_subset (if ptr.head? == some 48 then ptr.tail else ptr) 0
  refine List.Subset.trans hsubset ?_
  split
  · exact List.tail_subset ptr
  · exact List.Subset.refl _

theorem directives_isText (h : IsText ptr) : ∀ d ∈ (directives ptr).1, d.IsText := by
  induction hn : ptr.length using Nat.strong_induction_on generalizing ptr with
  | _ n ih =>
    subst hn
    cases ptr with
    | nil =>
      rw [directives]
      exact List.forall_mem_nil _
    | cons c rest =>
      have hrest : IsText rest := fun c hc => h c (List.mem_cons_of_mem _ hc)
      by_cases hc : c = '%'.toNat
      · subst hc
        cases hptr : (parseDirective rest).ptr with
        | nil =>
          rw [directives_end hptr]
          exact List.forall_mem_nil _
        | cons conv rest' =>
          have hsubset : conv :: rest' ⊆ rest := hptr ▸ parseDirective_subset rest
          have hrest' : IsText (conv :: rest') := fun c hc => hrest c (hsubset hc)
          rw [directives_conversion hptr]
          exact List.forall_mem_cons.mpr ⟨hrest' conv List.mem_cons_self,
            ih _ (parseDirective_tail (c := '%'.toNat) hptr)
              (fun c hc => hrest' c (List.mem_cons_of_mem _ hc)) rfl⟩
      · rw [directives_char hc]
        exact List.forall_mem_cons.mpr ⟨h c List.mem_cons_self,
          ih _ (Nat.lt_succ_self _) hrest rfl⟩

namespace Renders

variable {ds : List Directive}

theorem isText (h : Renders ds args text) (hds : ∀ d ∈ ds, d.IsText) : IsText text := by
  induction h with
  | nil => exact List.forall_mem_nil _
  | char _ ih =>
    rw [List.forall_mem_cons] at hds
    exact IsText.cons hds.1 (ih hds.2)
  | string hs _ ih =>
    rw [List.forall_mem_cons] at hds
    exact IsText.append (hs.isText hds.1) (ih hds.2)
  | @conversion zeroPad width _ _ _ _ _ _ _ hs _ ih =>
    rw [List.forall_mem_cons] at hds
    exact IsText.append (isText_paddedText zeroPad width (hs.isText hds.1)) (ih hds.2)

/-- The arguments are those that the directives ask for. -/
theorem matchesArgs (h : Renders ds args text) : MatchesArgs ds args := by
  induction h with
  | nil => exact trivial
  | char _ ih => exact ih
  | string hs _ ih => exact ⟨_, _, hs.fetch_eq, ih⟩
  | conversion _ hs _ ih => exact ⟨_, _, hs.fetch_eq, ih⟩

end Renders

/-! ## The messages of a call -/

/-- All output, sent or not. -/
def DbgBuffer.output (s : DbgBuffer) : List Nat := s.printed.flatten ++ s.chars

theorem put_output (h : s.put text = .ok s') : s'.output = s.output ++ text := by
  induction text generalizing s with
  | nil =>
    obtain rfl := Except.ok.inj h
    exact (List.append_nil _).symm
  | cons c text ih =>
    rw [put_cons, DbgBuffer.store] at h
    split at h
    · rw [ih h, DbgBuffer.output, DbgBuffer.output]
      simp only [List.append_assoc, List.singleton_append]
    · cases h

theorem print_output (h : s.print = .ok s') : s'.output = s.output ∧ s'.chars = [] := by
  rw [DbgBuffer.print] at h
  split at h
  · obtain rfl := Except.ok.inj h
    simp [DbgBuffer.output]
  · cases h

theorem emit_output (h : s.emit text = .ok s') : s'.output = s.output ++ text := by
  rw [DbgBuffer.emit] at h
  cases hput : s.put text with
  | error e =>
    rw [hput] at h
    cases h
  | ok s₁ =>
    rw [hput] at h
    change s₁.flush = .ok s' at h
    rw [DbgBuffer.flush] at h
    split at h
    · rw [(print_output h).1, put_output hput]
    · obtain rfl := Except.ok.inj h
      exact put_output hput

/-- What follows a piece of output comes behind it. -/
theorem bind_output {r : Except DbgFault DbgBuffer} {f : DbgBuffer → Except DbgFault DbgBuffer}
    (h : r.bind f = .ok s') : ∃ s₁, r = .ok s₁ ∧ f s₁ = .ok s' := by
  cases r with
  | error e => cases h
  | ok s₁ => exact ⟨s₁, rfl, h⟩

/-- **The messages of a call make up its text**, wherever the buffer has been flushed. -/
theorem dbgprintfLoop_flatten (hrenders : Renders (directives ptr).1 args text)
    (h : dbgprintfLoop ptr args s = .ok s') : s'.printed.flatten = s.output ++ text := by
  induction hn : ptr.length using Nat.strong_induction_on generalizing ptr args s text with
  | _ n ih =>
    subst hn
    cases ptr with
    | nil =>
      rw [directives] at hrenders
      cases hrenders
      rw [dbgprintfLoop] at h
      obtain ⟨htext, hchars⟩ := print_output h
      rw [← htext, DbgBuffer.output, hchars, List.append_nil, List.append_nil]
    | cons c rest =>
      by_cases hc : c = '%'.toNat
      · subst hc
        cases hptr : (parseDirective rest).ptr with
        | nil => exact absurd h (dbgprintfLoop_end hptr args s s')
        | cons conv rest' =>
          have hlt := parseDirective_tail (c := '%'.toNat) hptr
          rw [directives_conversion hptr] at hrenders
          cases hrenders with
          | string hs hrest =>
            rw [dbgprintfLoop_conversion hptr hs.fetch_eq, if_pos rfl] at h
            obtain ⟨s₁, hput, hloop⟩ := bind_output h
            rw [ih _ hlt hrest hloop rfl, put_output hput, List.append_assoc]
          | conversion hne hs hrest =>
            rw [dbgprintfLoop_conversion hptr hs.fetch_eq, if_neg hne] at h
            obtain ⟨s₁, hemit, hloop⟩ := bind_output h
            rw [ih _ hlt hrest hloop rfl, emit_output hemit, List.append_assoc]
      · rw [directives_char hc] at hrenders
        cases hrenders with
        | char hrest =>
          rw [dbgprintfLoop_char hc] at h
          obtain ⟨s₁, hemit, hloop⟩ := bind_output h
          rw [ih _ (Nat.lt_succ_self _) hrest hloop rfl, emit_output hemit, List.append_assoc]
          rfl

/-- A safe call, before the port: its messages are its text, and none of them has a NUL in it. -/
theorem DbgCall.Prints.messages {c : DbgCall} (h : c.Prints text) :
    ∃ b, dbgprintf true c.format c.args = .ok b ∧ b.printed.flatten = text ∧
      ∀ str ∈ b.printed, IsText str := by
  obtain ⟨b, hb⟩ := (dbgprintfLoop_ok_iff (s := ⟨[], [], Nat.zero_le _⟩)
    h.renders.matchesArgs).mpr ⟨h.complete, h.fits⟩
  have hflatten : b.printed.flatten = text := dbgprintfLoop_flatten h.renders hb
  refine ⟨b, hb, hflatten, fun str hstr c hc => ?_⟩
  have htext := h.renders.isText (directives_isText h.format)
  exact htext c (hflatten ▸ List.mem_flatten.mpr ⟨str, hstr, hc⟩)

/-! ## The port -/

section Port

variable {u : Uart} {turns : List Nat}

theorem serialPrint_wrote {str : List Nat} (h : u.Ready) (hstr : IsText str)
    (hturns : u.pending.length - 1 + str.length ≤ Uart.chances turns) :
    ∃ u' turns', serialPrint turns u str = some (u', turns') ∧ u.Wrote turns str turns' u' := by
  induction str generalizing u turns with
  | nil => exact ⟨u, turns, rfl, Uart.Wrote.nil h⟩
  | cons c str ih =>
    obtain ⟨hc, hrest⟩ := List.forall_mem_cons.mp hstr
    rw [List.length_cons, Nat.add_comm str.length] at hturns
    have hroom : u.pending.length - 1 + 1 ≤ Uart.chances turns := by omega
    obtain ⟨u₁, turns₁, hpolled, hwrote⟩ := h.polled hc.2 hroom
    obtain ⟨u', turns', hprint, hwrote'⟩ := ih hwrote.ready hrest (hwrote.enough hturns)
    refine ⟨u', turns', ?_, hwrote.trans hwrote'⟩
    rw [serialPrint, if_neg hc.1.ne', serialWrite, Nat.mod_eq_of_lt hc.2, hpolled]
    exact hprint

theorem serialPrints_wrote {messages : List (List Nat)} (h : u.Ready)
    (hmessages : ∀ str ∈ messages, IsText str)
    (hturns : u.pending.length - 1 + messages.flatten.length ≤ Uart.chances turns) :
    ∃ u' turns', serialPrints turns u messages = some (u', turns') ∧
      u.Wrote turns messages.flatten turns' u' := by
  induction messages generalizing u turns with
  | nil => exact ⟨u, turns, rfl, Uart.Wrote.nil h⟩
  | cons str messages ih =>
    obtain ⟨hstr, hrest⟩ := List.forall_mem_cons.mp hmessages
    rw [List.flatten_cons, List.length_append] at hturns
    have hroom : u.pending.length - 1 + str.length ≤ Uart.chances turns := by omega
    obtain ⟨u₁, turns₁, hprint, hwrote⟩ := serialPrint_wrote h hstr hroom
    obtain ⟨u', turns', hprints, hwrote'⟩ := ih hwrote.ready hrest (hwrote.enough hturns)
    refine ⟨u', turns', ?_, hwrote.trans hwrote'⟩
    rw [serialPrints, hprint]
    exact hprints

/-- What the writes of the initialization leave. The interrupts are disabled unless the first write
goes to the divisor latch. -/
theorem com1Setup_eq (u : Uart) :
    com1Setup.foldl (fun u access => u.write access.1 access.2) u =
      { u with
        lcr := 0x03
        divisorLow := 0x03
        divisorHigh := 0x00
        ier := if u.dlab then u.ier else 0x00
        fifo := true
        mcr := 0x0B
        pending := [] } := by
  have hlatch : Nat.testBit 0x80 7 = true := by decide
  have hclear : Nat.testBit 0xC7 2 = true := by decide
  cases hdlab : u.lcr.testBit 7 with
  | false => simp [com1Setup, Uart.write, Uart.dlab, hdlab, hlatch, hclear]
  | true => simp [com1Setup, Uart.write, Uart.dlab, hdlab, hlatch, hclear]

/-- **After the initialization** the transmitter is set up and nothing waits, whatever it was
before. -/
theorem kernelSerialCom1Init_ready {p : SerialCom1} (h : p.isInitialized = false) :
    (kernelSerialCom1Init p).isInitialized = true ∧ (kernelSerialCom1Init p).uart.Ready ∧
      (kernelSerialCom1Init p).uart.pending = [] ∧
      (kernelSerialCom1Init p).uart.line = p.uart.line := by
  rw [kernelSerialCom1Init, if_neg (by rw [h]; exact Bool.false_ne_true), com1Setup_eq]
  have hlatch : Nat.testBit 0x03 7 = false := by decide
  have hline : (!Nat.testBit 0x03 6 && !Nat.testBit 0x0B 4) = true := by decide
  have hdivisor : ¬(0x03 = 0 ∧ 0x00 = 0) := by decide
  exact ⟨rfl, ⟨hlatch, rfl, hline, hdivisor, List.forall_mem_nil _⟩, rfl, rfl⟩

theorem SerialCom1.call_wrote {p : SerialCom1} {c : DbgCall} (hinit : p.isInitialized = true)
    (h : p.uart.Ready) (hc : c.Prints text)
    (hturns : p.uart.pending.length - 1 + text.length ≤ Uart.chances turns) :
    ∃ p' turns', p.call turns c = some (p', turns') ∧ p'.isInitialized = true ∧
      p.uart.Wrote turns text turns' p'.uart := by
  obtain ⟨b, hb, rfl, hmessages⟩ := hc.messages
  obtain ⟨u', turns', hprints, hwrote⟩ := serialPrints_wrote h hmessages hturns
  refine ⟨⟨true, u'⟩, turns', ?_, rfl, hwrote⟩
  rw [SerialCom1.call, hinit, hb]
  simp only [hprints, Option.map_some]

theorem SerialCom1.calls_wrote {p : SerialCom1} {cs : List DbgCall} {texts : List (List Nat)}
    (hinit : p.isInitialized = true) (h : p.uart.Ready) (hcs : List.Forall₂ DbgCall.Prints cs texts)
    (hturns : p.uart.pending.length - 1 + texts.flatten.length ≤ Uart.chances turns) :
    ∃ p' turns', SerialCom1.calls turns p cs = some (p', turns') ∧
      p.uart.Wrote turns texts.flatten turns' p'.uart := by
  induction hcs generalizing p turns with
  | nil => exact ⟨p, turns, rfl, Uart.Wrote.nil h⟩
  | @cons c text cs texts hc _ ih =>
    rw [List.flatten_cons, List.length_append] at hturns
    have hroom : p.uart.pending.length - 1 + text.length ≤ Uart.chances turns := by omega
    obtain ⟨p₁, turns₁, hcall, hinit₁, hwrote⟩ := SerialCom1.call_wrote hinit h hc hroom
    obtain ⟨p', turns', hcalls, hwrote'⟩ := ih hinit₁ hwrote.ready (hwrote.enough hturns)
    refine ⟨p', turns', ?_, hwrote.trans hwrote'⟩
    rw [SerialCom1.calls, hcall]
    exact hcalls

/-- **What comes out on the line.** Whatever the port was before it has been initialized, and
whatever time the transmitter takes for each byte, a sequence of safe calls puts the texts of its
formats on the line, one after the other, with no byte lost: the calls come back once there was the
time for their bytes, and then the transmitter has only to send what waits, at most one byte. -/
theorem calls_on_line {p : SerialCom1} (hp : p.isInitialized = false) {cs : List DbgCall}
    {texts : List (List Nat)} (hcs : List.Forall₂ DbgCall.Prints cs texts)
    (hturns : texts.flatten.length ≤ Uart.chances turns) :
    ∃ p' turns', SerialCom1.calls turns (kernelSerialCom1Init p) cs = some (p', turns') ∧
      p'.uart.line ++ p'.uart.pending = p.uart.line ++ texts.flatten ∧
      ∀ n, 0 < n → (p'.uart.transmit n).line = p.uart.line ++ texts.flatten := by
  obtain ⟨hinit, hready, hempty, hline⟩ := kernelSerialCom1Init_ready hp
  have hnone : (kernelSerialCom1Init p).uart.pending.length = 0 := by
    rw [hempty]
    rfl
  have hroom : (kernelSerialCom1Init p).uart.pending.length - 1 + texts.flatten.length ≤
      Uart.chances turns := by
    omega
  obtain ⟨p', turns', hcalls, hwrote⟩ := SerialCom1.calls_wrote hinit hready hcs hroom
  have hwritten : p'.uart.line ++ p'.uart.pending = p.uart.line ++ texts.flatten := by
    have hbefore := hwrote.written
    rwa [Uart.written, Uart.written, hempty, hline, List.append_nil] at hbefore
  refine ⟨p', turns', hcalls, hwritten, fun n hn => ?_⟩
  have hone := hwrote.pending
  rw [Uart.transmit_line hwrote.ready, List.take_of_length_le (by omega), hwritten]

end Port

/-! ## Two calls -/

/-- A port that is set up for a loop, with the divisor latch on. -/
def loopPort : SerialCom1 := ⟨false, ⟨0x83, 0, 0, 0, false, 0x1B, [7], []⟩⟩

/-- "a%5d" for the number 7, and "%s" for the string "ok". -/
def someCalls : List DbgCall :=
  [⟨[97, 37, 53, 100], [.word 7]⟩, ⟨[37, 115], [.string [111, 107]]⟩]

/-- Their texts, "a    7" and "ok". -/
def someTexts : List (List Nat) := [[97, 32, 32, 32, 32, 55], [111, 107]]

theorem someCalls_prints : List.Forall₂ DbgCall.Prints someCalls someTexts := by
  have hnumber : directives [37, 53, 100] = ([.conversion false 5 100], true) := by
    have hconv := directives_conversion (rfl : (parseDirective [53, 100]).ptr = 100 :: [])
    rwa [directives] at hconv
  have hfirst : directives [97, 37, 53, 100] = ([.char 97, .conversion false 5 100], true) := by
    rw [directives_char (by decide), hnumber]
  have hsecond : directives [37, 115] = ([.conversion false 0 115], true) := by
    have hconv := directives_conversion (rfl : (parseDirective [115]).ptr = 115 :: [])
    rwa [directives] at hconv
  have hseven : ConversionText 100 [.word 7] [55] [] :=
    .signed (Or.inl rfl) (by decide) (by decide)
  have hok : ConversionText 115 [.string [111, 107]] [111, 107] [] := .string (by simp [IsText])
  refine .cons ⟨by simp [IsText], ?_, ?_, ?_⟩ (.cons ⟨by simp [IsText], ?_, ?_, ?_⟩ .nil)
  · rw [hfirst]
  · rw [hfirst]
    refine ⟨by decide, [55], [], hseven.fetch_eq, ?_⟩
    rw [if_neg (by decide)]
    refine ⟨by decide, ?_⟩
    change _ < bufferSize
    decide
  · rw [hfirst]
    exact .char (.conversion (by decide) hseven .nil)
  · rw [hsecond]
  · rw [hsecond]
    refine ⟨[111, 107], [], hok.fetch_eq, ?_⟩
    rw [if_pos (by decide)]
    change _ < bufferSize
    decide
  · rw [hsecond]
    exact .string hok .nil

/-- The transmitter has the time for a byte in every second turn. -/
theorem calls_on_line_someCalls :
    ∃ p' turns', SerialCom1.calls (List.replicate 8 [0, 1]).flatten (kernelSerialCom1Init loopPort)
        someCalls = some (p', turns') ∧
      p'.uart.line ++ p'.uart.pending = [97, 32, 32, 32, 32, 55, 111, 107] ∧
      ∀ n, 0 < n → (p'.uart.transmit n).line = [97, 32, 32, 32, 32, 55, 111, 107] :=
  calls_on_line rfl someCalls_prints (by decide)

end Xylophone
