import Mathlib.Data.List.Basic
import Mathlib.Data.Nat.Bitwise

/-!
# Serial ports

The transmitter of a 16550 UART: its registers, the bytes that wait to be sent, and what has been
put on the line. The receiver and the interrupts are left out.

* `Uart.Ready.transmit` — a transmitter that is set up sends what waits, in order
* `Uart.Ready.send` — a byte that is written when none waits is not lost
* `Uart.Ready.polled` — a program that waits for that writes a byte, whatever the time it takes
* `Uart.Wrote.trans` — several of them
-/

namespace Infra

structure Uart where
  /-- The line control register. -/
  lcr : Nat
  divisorLow : Nat
  divisorHigh : Nat
  /-- The interrupt enable register. -/
  ier : Nat
  fifo : Bool
  /-- The modem control register. -/
  mcr : Nat
  pending : List Nat
  line : List Nat

namespace Uart

/-- The divisor latch takes the place of the first two registers. -/
def dlab (u : Uart) : Bool := u.lcr.testBit 7

/-- The bits of a byte that are sent. -/
def wordLength (u : Uart) : Nat := 5 + u.lcr % 4

/-- Neither a break nor the loop takes the place of the line. -/
def onLine (u : Uart) : Bool := !u.lcr.testBit 6 && !u.mcr.testBit 4

/-- A byte for the register at an offset. -/
def write (u : Uart) (offset value : Nat) : Uart :=
  match offset with
  | 0 =>
    if u.dlab then { u with divisorLow := value }
    else if u.pending.length < (if u.fifo then 16 else 1) then
      { u with pending := u.pending ++ [value] }
    else if u.fifo then u
    else { u with pending := [value] }
  | 1 => if u.dlab then { u with divisorHigh := value } else { u with ier := value }
  | 2 =>
    -- The other bits are not read when the first one disables the queue.
    { u with
      fifo := value.testBit 0
      pending :=
        if value.testBit 0 != u.fifo || value.testBit 0 && value.testBit 2 then [] else u.pending }
  | 3 => { u with lcr := value }
  | 4 => { u with mcr := value }
  | _ => u

/-- The line status register, of which the bit for a byte that can be written is read. -/
def lineStatus (u : Uart) : Nat := if u.pending = [] then 0x20 else 0

/-- The transmitter has the time for `n` bytes. -/
def transmit (u : Uart) (n : Nat) : Uart :=
  if u.divisorLow = 0 ∧ u.divisorHigh = 0 then u
  else
    { u with
      pending := u.pending.drop n
      line :=
        if u.onLine then u.line ++ (u.pending.take n).map (· % 2 ^ u.wordLength) else u.line }

/-- The transmitter is set up for bytes of eight bits. -/
structure Ready (u : Uart) : Prop where
  dlab : u.dlab = false
  wordLength : u.wordLength = 8
  onLine : u.onLine = true
  divisor : ¬(u.divisorLow = 0 ∧ u.divisorHigh = 0)
  pending : ∀ b ∈ u.pending, b < 0x100

/-- What has been written, sent or not. -/
def written (u : Uart) : List Nat := u.line ++ u.pending

variable {u : Uart} {b : Nat}

theorem transmit_pending (h : u.Ready) (n : Nat) : (u.transmit n).pending = u.pending.drop n := by
  rw [transmit, if_neg h.divisor]

theorem map_mod {l : List Nat} (h : ∀ b ∈ l, b < 0x100) : l.map (· % 2 ^ 8) = l := by
  conv_rhs => rw [← List.map_id l]
  exact List.map_congr_left fun b hb => Nat.mod_eq_of_lt (h b hb)

theorem transmit_line (h : u.Ready) (n : Nat) :
    (u.transmit n).line = u.line ++ u.pending.take n := by
  rw [transmit, if_neg h.divisor, h.wordLength]
  simp only [h.onLine, if_true]
  rw [map_mod fun b hb => h.pending b (List.mem_of_mem_take hb)]

namespace Ready

/-- **Nothing is lost while the transmitter runs.** -/
theorem transmit (h : u.Ready) (n : Nat) :
    (u.transmit n).Ready ∧ (u.transmit n).written = u.written := by
  refine ⟨?_, ?_⟩
  · have hpending : ∀ b ∈ (u.transmit n).pending, b < 0x100 := by
      rw [transmit_pending h]
      exact fun b hb => h.pending b (List.mem_of_mem_drop hb)
    revert hpending
    rw [Uart.transmit, if_neg h.divisor]
    exact fun hpending => ⟨h.dlab, h.wordLength, h.onLine, h.divisor, hpending⟩
  · rw [written, transmit_line h, transmit_pending h, List.append_assoc, List.take_append_drop,
      written]

/-- **A byte that is written when no other one waits is not lost.** -/
theorem send (h : u.Ready) (hempty : u.pending = []) (hb : b < 0x100) :
    (u.write 0 b).Ready ∧ (u.write 0 b).written = u.written ++ [b] ∧
      (u.write 0 b).pending = [b] := by
  have hroom : u.pending.length < (if u.fifo then 16 else 1) := by
    rw [hempty]
    split <;> decide
  have hwrite : u.write 0 b = { u with pending := [b] } := by
    rw [write, if_neg (by simp [h.dlab]), if_pos hroom, hempty]
    rfl
  rw [hwrite]
  refine ⟨⟨h.dlab, h.wordLength, h.onLine, h.divisor, ?_⟩, ?_, rfl⟩
  · intro c hc
    rw [List.mem_singleton] at hc
    exact hc ▸ hb
  · rw [written, written, hempty, List.append_nil]

end Ready

/-! ## A program that waits for the transmitter -/

/-- The turns of a wait, of each of which it is known for how many bytes the transmitter has the
time before the status is read, and the byte that is written then. -/
def polled : (turns : List Nat) → Uart → (b : Nat) → Option (Uart × List Nat)
  | [], _, _ => none
  | n :: turns, u, b =>
    if (u.transmit n).lineStatus &&& 0x20 = 0 then polled turns (u.transmit n) b
    else some ((u.transmit n).write 0 b, turns)

/-- The turns in which the transmitter has the time for a byte. -/
def chances (turns : List Nat) : Nat := turns.countP (0 < ·)

theorem chances_cons (n : Nat) (turns : List Nat) :
    chances (n :: turns) = chances turns + (if 0 < n then 1 else 0) := by
  rw [chances, List.countP_cons]
  simp [chances]

/-- The text has been written, in no more turns than it takes, and of the bytes that wait at most
one is new. -/
structure Wrote (turns : List Nat) (u : Uart) (text : List Nat) (turns' : List Nat) (u' : Uart) :
    Prop where
  ready : u'.Ready
  written : u'.written = u.written ++ text
  pending : u'.pending.length ≤ max 1 u.pending.length
  chances : chances turns + (u'.pending.length - 1) ≤
    chances turns' + (u.pending.length - 1) + text.length

namespace Wrote

variable {u₁ u₂ : Uart} {turns turns₁ turns₂ text text' : List Nat}

theorem nil (h : u.Ready) : Wrote turns u [] turns u :=
  ⟨h, (List.append_nil _).symm, le_max_right _ _, Nat.le_refl _⟩

theorem trans (h : Wrote turns u text turns₁ u₁) (h' : Wrote turns₁ u₁ text' turns₂ u₂) :
    Wrote turns u (text ++ text') turns₂ u₂ := by
  have hpending := h.pending
  have hpending' := h'.pending
  have hchances := h.chances
  have hchances' := h'.chances
  refine ⟨h'.ready, ?_, by omega, ?_⟩
  · rw [h'.written, h.written, List.append_assoc]
  · rw [List.length_append]
    omega

/-- There are turns enough for what follows. -/
theorem enough (h : Wrote turns u text turns₁ u₁) {n : Nat}
    (hn : u.pending.length - 1 + (text.length + n) ≤ Uart.chances turns) :
    u₁.pending.length - 1 + n ≤ Uart.chances turns₁ := by
  have hchances := h.chances
  omega

end Wrote

/-- **A byte after a wait**: it is written behind the others, whatever the time that passes between
two turns, as soon as there was the time for all that waited. -/
theorem Ready.polled (h : u.Ready) (hb : b < 0x100) {turns : List Nat}
    (hturns : u.pending.length - 1 + 1 ≤ chances turns) :
    ∃ u' turns', Uart.polled turns u b = some (u', turns') ∧ Wrote turns u [b] turns' u' := by
  induction turns generalizing u with
  | nil => exact absurd hturns (by simp [chances])
  | cons n turns ih =>
    obtain ⟨hready, hwritten⟩ := h.transmit n
    have hlength : (u.transmit n).pending.length = u.pending.length - n := by
      rw [transmit_pending h n, List.length_drop]
    have hchances := chances_cons n turns
    rw [Uart.polled]
    by_cases hempty : (u.transmit n).pending = []
    · obtain ⟨hready', hwritten', hone⟩ := hready.send hempty hb
      have hstatus : (u.transmit n).lineStatus &&& 0x20 ≠ 0 := by
        rw [lineStatus, if_pos hempty]
        decide
      rw [if_neg hstatus]
      refine ⟨_, _, rfl, hready', hwritten'.trans (by rw [hwritten]), ?_, ?_⟩
      · rw [hone]
        exact le_max_left _ _
      · rw [hone, hchances, List.length_singleton]
        split <;> omega
    · have hstatus : (u.transmit n).lineStatus &&& 0x20 = 0 := by
        rw [lineStatus, if_neg hempty]
        rfl
      rw [if_pos hstatus]
      -- The chance of a turn is a byte that does not wait any more.
      have hpos : 0 < (u.transmit n).pending.length := List.length_pos_iff.mpr hempty
      rw [hchances] at hturns
      have hrest : (u.transmit n).pending.length - 1 + 1 ≤ chances turns := by
        split at hturns <;> omega
      obtain ⟨u', turns', heq, hwrote⟩ := ih hready hrest
      have hpending := hwrote.pending
      have hleft := hwrote.chances
      rw [List.length_singleton] at hleft
      refine ⟨u', turns', heq, hwrote.ready, hwrote.written.trans (by rw [hwritten]), by omega, ?_⟩
      rw [hchances, List.length_singleton]
      split <;> omega

end Uart

end Infra
