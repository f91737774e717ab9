import Mathlib.Logic.Function.Basic
import Mathlib.Data.List.Basic

/-!
# Interrupt controllers

The 8259A interrupt controller, and two of them in cascade: the lines of the slave take the place of
one line of the master. Lines are numbered from 0 on, those of the slave from 8 on. The commands that
rotate the priorities are left out, and so are the modes other than the fully nested one.

* `I8259.init_idle` — the initialization leads to one state from every state
* `I8259.AtMost.eoi` — an end of interrupt, also a surplus one
* `I8259Pair.interrupt_eq` — the line that is served, when none is in service
-/

namespace Infra

/-- What the next byte that is written to the data port of a controller is. -/
inductive I8259Byte where
  | icw2
  | icw3
  | icw4
  | mask
deriving DecidableEq, Repr

structure I8259 where
  next : I8259Byte
  /-- There is no ICW3. -/
  single : Bool
  /-- There is an ICW4. -/
  icw4 : Bool
  /-- The vector of the first line, of ICW2. -/
  base : Nat
  /-- ICW3: for a master the lines that slaves are on, for a slave the number of its line. -/
  cascade : Nat
  mode8086 : Bool
  autoEoi : Bool
  imr : Nat → Bool
  irr : Nat → Bool
  isr : Nat → Bool

namespace I8259

/-- The first of the eight lines in a register. -/
def first (r : Nat → Bool) : Option Nat := (List.range 8).find? r

/-- The end of the interrupt with the highest priority in service. -/
def eoi (p : I8259) : I8259 :=
  match first p.isr with
  | none => p
  | some k => { p with isr := Function.update p.isr k false }

/-- A byte for the command port: ICW1, OCW3 or OCW2. -/
def command (p : I8259) (v : Nat) : I8259 :=
  if v.testBit 4 then
    { p with
      next := .icw2
      single := v.testBit 1
      icw4 := v.testBit 0
      mode8086 := false
      autoEoi := false
      imr := fun _ => false
      irr := fun _ => false
      isr := fun _ => false }
  else if v.testBit 3 then p
  else if v / 0x20 = 1 then p.eoi
  else if v / 0x20 = 3 then { p with isr := Function.update p.isr (v % 8) false }
  else p

/-- What follows ICW3. -/
def afterIcw3 (p : I8259) : I8259Byte := if p.icw4 then .icw4 else .mask

/-- A byte for the data port. -/
def data (p : I8259) (v : Nat) : I8259 :=
  match p.next with
  | .icw2 => { p with base := v / 8 * 8, next := if p.single then p.afterIcw3 else .icw3 }
  | .icw3 => { p with cascade := v, next := p.afterIcw3 }
  | .icw4 => { p with mode8086 := v.testBit 0, autoEoi := v.testBit 1, next := .mask }
  | .mask => { p with imr := fun k => v.testBit k }

/-- The line of the request that is made to the processor: no line of its priority or of a higher
one is in service. -/
def request (p : I8259) : Option Nat :=
  first fun k => p.irr k && !p.imr k && (List.range (k + 1)).all fun j => !p.isr j

/-- The processor acknowledges the request. -/
def acknowledge (p : I8259) (k : Nat) : I8259 :=
  { p with irr := Function.update p.irr k false, isr := Function.update p.isr k (!p.autoEoi) }

end I8259

structure I8259Pair where
  master : I8259
  slave : I8259

namespace I8259Pair

/-- A device makes a request on its line. -/
def raise (p : I8259Pair) (n : Nat) : I8259Pair :=
  if n < 8 then { p with master.irr := Function.update p.master.irr n true }
  else { p with slave.irr := Function.update p.slave.irr (n - 8) true }

/-- The slave makes a request on its line of the master as long as it has one. -/
def cascaded (p : I8259Pair) : I8259 :=
  { p.master with irr := Function.update p.master.irr p.slave.cascade p.slave.request.isSome }

/-- The vector that the processor is given, when both controllers are initialized and the slave is
on the line that the master expects it on. -/
def interrupt (p : I8259Pair) : Option (Nat × I8259Pair) :=
  if p.master.next = .mask ∧ p.slave.next = .mask ∧ p.master.mode8086 ∧ p.slave.mode8086 ∧
      p.master.cascade.testBit p.slave.cascade then
    p.cascaded.request.bind fun k =>
      if k = p.slave.cascade then
        p.slave.request.map fun j =>
          (p.slave.base + j, ⟨p.cascaded.acknowledge k, p.slave.acknowledge j⟩)
      else some (p.master.base + k, ⟨p.cascaded.acknowledge k, p.slave⟩)
  else none

end I8259Pair

/-! ## One controller -/

namespace I8259

variable {p : I8259} {b c k : Nat}

/-- The controller is initialized, no line is masked, and only one may be in service. -/
structure AtMost (p : I8259) (b c k : Nat) : Prop where
  next : p.next = .mask
  mode8086 : p.mode8086 = true
  autoEoi : p.autoEoi = false
  base : p.base = b
  cascade : p.cascade = c
  imr : ∀ j, p.imr j = false
  isr : ∀ j, j ≠ k → p.isr j = false

/-- No line is in service. -/
structure Idle (p : I8259) (b c : Nat) : Prop extends AtMost p b c 0 where
  none : ∀ j, p.isr j = false

theorem Idle.atMost (h : Idle p b c) (k : Nat) : AtMost p b c k :=
  ⟨h.next, h.mode8086, h.autoEoi, h.base, h.cascade, h.imr, fun j _ => h.none j⟩

theorem AtMost.idle (h : AtMost p b c k) (hk : p.isr k = false) : Idle p b c := by
  have hnone : ∀ j, p.isr j = false := fun j => by
    by_cases hj : j = k
    · rw [hj, hk]
    · exact h.isr j hj
  exact ⟨⟨h.next, h.mode8086, h.autoEoi, h.base, h.cascade, h.imr, fun j _ => hnone j⟩, hnone⟩

/-- **The initialization**, from any state, also from the middle of another one. -/
theorem init_idle (p : I8259) (hb : b % 8 = 0) (c : Nat) :
    Idle (((((p.command 0x11).data b).data c).data 1).data 0) b c ∧
      ∀ j, (((((p.command 0x11).data b).data c).data 1).data 0).irr j = false := by
  have hbase : b / 8 * 8 = b := by omega
  refine ⟨⟨⟨rfl, rfl, rfl, hbase, rfl, fun j => Nat.zero_testBit j, fun j _ => rfl⟩, fun j => rfl⟩,
    fun j => rfl⟩

theorem first_eq_some {r : Nat → Bool} (h : first r = some k) : k < 8 ∧ r k = true :=
  ⟨List.mem_range.mp (List.mem_of_find?_eq_some h), List.find?_some h⟩

theorem eoi_irr (p : I8259) : p.eoi.irr = p.irr := by
  unfold eoi
  split <;> rfl

/-- **An end of interrupt**, also a surplus one. -/
theorem AtMost.eoi (h : AtMost p b c k) (hk : k < 8) : Idle p.eoi b c := by
  unfold I8259.eoi
  split
  · next hnone =>
    have hclear := List.find?_eq_none.mp hnone k (List.mem_range.mpr hk)
    exact h.idle (Bool.not_eq_true _ ▸ hclear)
  · next j hj =>
    have hserved : j = k := by
      by_contra hne
      have hset := (first_eq_some hj).2
      rw [h.isr j hne] at hset
      cases hset
    subst hserved
    have hisr : ∀ i, Function.update p.isr j false i = false := fun i => by
      by_cases hi : i = j
      · rw [hi, Function.update_self]
      · rw [Function.update_of_ne hi, h.isr i hi]
    exact ⟨⟨h.next, h.mode8086, h.autoEoi, h.base, h.cascade, h.imr, fun i _ => hisr i⟩, hisr⟩

theorem Idle.acknowledge (h : Idle p b c) (k : Nat) : AtMost (p.acknowledge k) b c k :=
  ⟨h.next, h.mode8086, h.autoEoi, h.base, h.cascade, h.imr, fun j hj =>
    (Function.update_of_ne hj ..).trans (h.none j)⟩

theorem Idle.request_eq (h : Idle p b c) : p.request = first p.irr := by
  unfold request
  congr 1
  funext k
  have hall : ((List.range (k + 1)).all fun _ => true) = true :=
    List.all_eq_true.mpr fun _ _ => rfl
  simp only [h.imr, h.none, Bool.not_false, Bool.and_true, hall]

end I8259

/-! ## Two controllers -/

namespace I8259Pair

/-- The lines of both, in the order of their priority, with the slave on the line `s`. -/
def lineOrder (s : Nat) : List Nat :=
  (List.range 8).flatMap fun k => if k = s then (List.range 8).map (8 + ·) else [k]

/-- A device has made a request that has not been served. -/
def requested (p : I8259Pair) (n : Nat) : Bool :=
  if n < 8 then p.master.irr n else p.slave.irr (n - 8)

def vector (p : I8259Pair) (n : Nat) : Nat :=
  if n < 8 then p.master.base + n else p.slave.base + (n - 8)

/-- The request of a line is acknowledged. -/
def taken (p : I8259Pair) (n : Nat) : I8259Pair :=
  if n < 8 then { p with master := p.cascaded.acknowledge n }
  else ⟨p.cascaded.acknowledge p.slave.cascade, p.slave.acknowledge (n - 8)⟩

/-- Both controllers are initialized, and no line is masked or in service. -/
structure Quiet (p : I8259Pair) (b₁ c b₂ s : Nat) : Prop where
  master : p.master.Idle b₁ c
  slave : p.slave.Idle b₂ s
  connected : c.testBit s = true
  line : s < 8

variable {p : I8259Pair} {b₁ c b₂ s n : Nat}

theorem findSome?_eq_bind {α β : Type*} {f : α → Option β} {q : α → Bool} {l : List α}
    (h : ∀ a ∈ l, q a = (f a).isSome) : l.findSome? f = (l.find? q).bind f := by
  induction l with
  | nil => rfl
  | cons a l ih =>
    have hrest := ih fun b hb => h b (List.mem_cons_of_mem _ hb)
    rw [List.findSome?_cons, List.find?_cons, h a List.mem_cons_self]
    cases hf : f a with
    | none => simpa only [Option.isSome_none] using hrest
    | some b => simp only [Option.isSome_some, Option.bind_some, hf]

namespace Quiet

variable (h : Quiet p b₁ c b₂ s)
include h

theorem cascaded : p.cascaded.Idle b₁ c :=
  ⟨⟨h.master.next, h.master.mode8086, h.master.autoEoi, h.master.base, h.master.cascade,
    h.master.imr, h.master.isr⟩, h.master.none⟩

theorem cascaded_irr (k : Nat) :
    p.cascaded.irr k = if k = s then p.slave.request.isSome else p.master.irr k := by
  rw [← h.slave.cascade]
  exact Function.update_apply ..

/-- The first requested line of those behind one line of the master. -/
theorem find?_line {k : Nat} (hk : k < 8) :
    (if k = s then (List.range 8).map (8 + ·) else [k]).find? p.requested =
      if k = s then p.slave.request.map (8 + ·) else if p.master.irr k then some k else none := by
  by_cases hs : k = s
  · have hbehind : p.requested ∘ (8 + ·) = p.slave.irr := by
      funext j
      have hj : ¬ 8 + j < 8 := by omega
      have hback : 8 + j - 8 = j := by omega
      simp only [Function.comp, requested, hj, if_false, hback]
    rw [if_pos hs, if_pos hs, List.find?_map, hbehind, h.slave.request_eq, I8259.first]
  · rw [if_neg hs, if_neg hs, List.find?_singleton, requested, if_pos hk]

/-- A request changes nothing else. -/
theorem raise (n : Nat) : (p.raise n).Quiet b₁ c b₂ s := by
  obtain ⟨⟨⟨hnext, hmode, hauto, hbase, hcascade, himr, -⟩, hisr⟩,
    ⟨⟨hnext', hmode', hauto', hbase', hcascade', himr', -⟩, hisr'⟩, hconnected, hline⟩ := h
  unfold I8259Pair.raise
  split
  · exact ⟨⟨⟨hnext, hmode, hauto, hbase, hcascade, himr, fun j _ => hisr j⟩, hisr⟩,
      ⟨⟨hnext', hmode', hauto', hbase', hcascade', himr', fun j _ => hisr' j⟩, hisr'⟩, hconnected,
      hline⟩
  · exact ⟨⟨⟨hnext, hmode, hauto, hbase, hcascade, himr, fun j _ => hisr j⟩, hisr⟩,
      ⟨⟨hnext', hmode', hauto', hbase', hcascade', himr', fun j _ => hisr' j⟩, hisr'⟩, hconnected,
      hline⟩

/-- **The line that is served** is the requested one with the highest priority. -/
theorem interrupt_eq :
    p.interrupt = ((lineOrder s).find? p.requested).map fun n => (p.vector n, p.taken n) := by
  have hready : p.master.next = .mask ∧ p.slave.next = .mask ∧ p.master.mode8086 ∧
      p.slave.mode8086 ∧ p.master.cascade.testBit p.slave.cascade :=
    ⟨h.master.next, h.slave.next, h.master.mode8086, h.slave.mode8086, by
      rw [h.master.cascade, h.slave.cascade, h.connected]⟩
  have hsome : ∀ k ∈ List.range 8, p.cascaded.irr k =
      ((if k = s then (List.range 8).map (8 + ·) else [k]).find? p.requested).isSome := by
    intro k hk
    rw [h.find?_line (List.mem_range.mp hk), h.cascaded_irr]
    split
    · rw [Option.isSome_map]
    · cases p.master.irr k <;> rfl
  rw [interrupt, if_pos hready, h.cascaded.request_eq, lineOrder, List.find?_flatMap,
    findSome?_eq_bind hsome, h.slave.cascade, I8259.first]
  cases hfirst : (List.range 8).find? p.cascaded.irr with
  | none => rfl
  | some k =>
    obtain ⟨hk, hset⟩ := I8259.first_eq_some hfirst
    rw [Option.bind_some, Option.bind_some, h.find?_line hk]
    rw [h.cascaded_irr] at hset
    split
    · next hs =>
      -- A line of the slave.
      rw [h.slave.request_eq]
      cases hj : I8259.first p.slave.irr with
      | none => rfl
      | some j =>
        have hout : ¬ 8 + j < 8 := by omega
        have hback : 8 + j - 8 = j := by omega
        simp only [Option.map_some, vector, taken, hout, if_false, hback, hs, h.slave.cascade]
    · next hs =>
      rw [if_neg hs] at hset
      simp only [hset, if_true, Option.map_some, vector, taken, hk]

/-- What is in service while a request is handled. -/
theorem taken_atMost (n : Nat) :
    ((p.taken n).master.AtMost b₁ c (if n < 8 then n else s)) ∧
      if n < 8 then (p.taken n).slave.Idle b₂ s else (p.taken n).slave.AtMost b₂ s (n - 8) := by
  unfold taken
  split
  · exact ⟨h.cascaded.acknowledge n, h.slave⟩
  · rw [h.slave.cascade]
    exact ⟨h.cascaded.acknowledge s, h.slave.acknowledge (n - 8)⟩

/-- Of the requests the one that is served is gone. -/
theorem requested_taken {m : Nat} (hm : m ≠ s) (n : Nat) :
    (p.taken n).requested m = if m = n then false else p.requested m := by
  have hmaster : p.cascaded.irr m = p.master.irr m := by
    rw [h.cascaded_irr, if_neg hm]
  unfold taken requested
  by_cases hn : n < 8
  · rw [if_pos hn]
    split
    · rw [← hmaster]
      exact Function.update_apply ..
    · rw [if_neg (by omega)]
  · rw [if_neg hn]
    split
    · next hlow =>
      rw [h.slave.cascade, if_neg (by omega), ← hmaster]
      exact Function.update_of_ne hm ..
    · have hline : m - 8 = n - 8 ↔ m = n := by omega
      simp only [← hline]
      exact Function.update_apply ..

end Quiet

theorem mem_lineOrder (hs : s < 8) : n ∈ lineOrder s ↔ n < 16 ∧ n ≠ s := by
  simp only [lineOrder, List.mem_flatMap, List.mem_range]
  constructor
  · rintro ⟨k, hk, hn⟩
    split at hn
    · obtain ⟨j, hj, rfl⟩ := List.mem_map.mp hn
      have hj := List.mem_range.mp hj
      omega
    · obtain rfl := List.mem_singleton.mp hn
      omega
  · rintro ⟨hn, hne⟩
    by_cases hlow : n < 8
    · exact ⟨n, hlow, by rw [if_neg hne]; exact List.mem_singleton_self n⟩
    · refine ⟨s, hs, ?_⟩
      rw [if_pos rfl]
      exact List.mem_map.mpr ⟨n - 8, List.mem_range.mpr (by omega), by omega⟩

theorem nodup_lineOrder (hs : s < 8) : (lineOrder s).Nodup := by
  have hall : ∀ s ∈ List.range 8, (lineOrder s).Nodup := by decide
  exact hall s (List.mem_range.mpr hs)

/-- Serving the first request of a list, and then the others. -/
theorem filter_eq_cons {l : List Nat} {q : Nat → Bool} (hl : l.Nodup) (hn : l.find? q = some n) :
    l.filter q = n :: l.filter fun m => if m = n then false else q m := by
  induction l with
  | nil => cases hn
  | cons a l ih =>
    obtain ⟨ha, hl⟩ := List.nodup_cons.mp hl
    rw [List.find?_cons] at hn
    cases hq : q a with
    | true =>
      rw [hq] at hn
      obtain rfl := Option.some.inj hn
      have hrest : l.filter q = l.filter fun m => if m = a then false else q m := by
        refine List.filter_congr fun m hm => ?_
        have hne : m ≠ a := fun he => ha (he ▸ hm)
        rw [if_neg hne]
      rw [List.filter_cons_of_pos hq, List.filter_cons_of_neg (by simp), hrest]
    | false =>
      rw [hq] at hn
      rw [List.filter_cons_of_neg (by simp [hq]), ih hl hn, List.filter_cons_of_neg (by simp [hq])]

end I8259Pair

end Infra
