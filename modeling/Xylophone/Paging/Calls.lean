import Xylophone.Paging.Mapping

/-!
# Calls of the paging manager

A call of the paging manager is a list of operations on single pages, `PagingCall.pages`, carried
out one after the other. An invariant is proved for one operation (`PageStep`) and then holds
after every call (`CallStep.invariant`) and after every run of calls.

* `rangeLoop_spec` — a range loop visits the pages of its range, or never ends
* `PagingCall.pageRun` — a call that returns is the run of its operations
-/

namespace Xylophone

open Infra

/-! ## Range loops -/

/-- The addresses a range loop visits. -/
def rangeAddresses (startAddress endAddress : Nat) : List Nat :=
  if startAddress ≤ endAddress then
    List.range' startAddress ((endAddress - startAddress) / 0x1000 + 1) 0x1000
  else []

/-- The loop over the range comes to its end before the address wraps around. -/
def RangeEnds (startAddress endAddress : Nat) : Prop :=
  endAddress < startAddress ∨
    startAddress + ((endAddress - startAddress) / 0x1000 + 1) * 0x1000 < 0x100000000

instance (startAddress endAddress : Nat) : Decidable (RangeEnds startAddress endAddress) :=
  inferInstanceAs (Decidable (_ ∨ _))

section RangeLoop

variable {σ : Type} {f : σ → Nat → Option σ} {endAddress : Nat}

/-- A loop over `n + 1` addresses, which ends unless the address wraps around. -/
theorem rangeLoop_count (hend : endAddress < 0x100000000) : ∀ (n a : Nat) (s : σ), a ≤ endAddress →
    (endAddress - a) / 0x1000 = n → rangeLoop f endAddress (n + 2) a s =
      if a + (n + 1) * 0x1000 < 0x100000000 then (List.range' a (n + 1) 0x1000).foldlM f s
      else none := by
  intro n
  induction n with
  | zero =>
    intro a s hle hn
    rw [rangeLoop, if_pos hle]
    by_cases hwrap : a + (0 + 1) * 0x1000 < 0x100000000
    · rw [if_pos hwrap, wrap32_of_lt (by omega)]
      have hdone : ∀ s', rangeLoop f endAddress 1 (a + 0x1000) s' = some s' := by
        intro s'
        rw [rangeLoop, if_neg (by omega)]
      simp only [hdone, List.range'_succ, List.range'_zero, List.foldlM_cons, List.foldlM_nil]
      rfl
    · -- the address is small again
      rw [if_neg hwrap]
      have hsmall : wrap32 (a + 0x1000) ≤ endAddress := by
        unfold wrap32
        omega
      have hnever : ∀ s', rangeLoop f endAddress 1 (wrap32 (a + 0x1000)) s' = none := by
        intro s'
        rw [rangeLoop, if_pos hsmall]
        cases f s' (wrap32 (a + 0x1000)) <;> rfl
      cases f s a with
      | none => rfl
      | some s' =>
        rw [Option.bind_some]
        exact hnever s'
  | succ n ih =>
    intro a s hle hn
    rw [rangeLoop, if_pos hle, wrap32_of_lt (by omega)]
    have hrest := fun s' => ih (a + 0x1000) s' (by omega) (by omega)
    have hcond : a + 0x1000 + (n + 1) * 0x1000 < 0x100000000 ↔
        a + (n + 1 + 1) * 0x1000 < 0x100000000 := by omega
    simp only [hrest, hcond]
    split
    · rw [List.range'_succ (s := a), List.foldlM_cons]
      rfl
    · cases f s a <;> rfl

/-- **A range loop visits the pages of its range, or never ends.** -/
theorem rangeLoop_spec (hend : endAddress < 0x100000000) (startAddress : Nat) (s : σ) :
    rangeLoop f endAddress (rangeFuel startAddress endAddress) startAddress s =
      if endAddress < startAddress ∨
          startAddress + ((endAddress - startAddress) / 0x1000 + 1) * 0x1000 < 0x100000000 then
        (rangeAddresses startAddress endAddress).foldlM f s
      else none := by
  unfold rangeFuel rangeAddresses
  by_cases hle : startAddress ≤ endAddress
  · rw [rangeLoop_count hend _ startAddress s hle rfl, if_pos hle]
    have hno : ¬ endAddress < startAddress := by omega
    simp only [hno, false_or]
  · rw [rangeLoop, if_neg hle, if_pos (Or.inl (by omega)), if_neg hle]
    rfl

theorem rangeLoop_some (hend : endAddress < 0x100000000) {startAddress : Nat} {s s' : σ}
    (h : rangeLoop f endAddress (rangeFuel startAddress endAddress) startAddress s = some s') :
    (rangeAddresses startAddress endAddress).foldlM f s = some s' := by
  rw [rangeLoop_spec hend] at h
  split at h
  · exact h
  · cases h

end RangeLoop

theorem mem_rangeAddresses {startAddress endAddress a : Nat} :
    a ∈ rangeAddresses startAddress endAddress ↔
      startAddress ≤ a ∧ a ≤ endAddress ∧ (a - startAddress) % 0x1000 = 0 := by
  unfold rangeAddresses
  split
  · rw [List.mem_range']
    constructor
    · rintro ⟨i, hi, rfl⟩
      omega
    · rintro ⟨h1, h2, h3⟩
      exact ⟨(a - startAddress) / 0x1000, by omega, by omega⟩
  · constructor
    · intro h
      cases h
    · omega

/-! ## Single pages -/

/-- An operation on a single page. -/
inductive PageOp where
  | map (address frame : Nat) (isKernel isWriteable : Bool)
  | unmap (address : Nat) (shouldFree : Bool)
deriving DecidableEq, Repr

inductive PageStep (malloc : TableSource) : Kernel → PageOp → Kernel → Prop where
  | map {s s' : Kernel} {address frame : Nat} {isKernel isWriteable : Bool}
      (result : allocatePage malloc s address frame isKernel isWriteable = some s') :
      PageStep malloc s (.map address frame isKernel isWriteable) s'
  | unmap {s : Kernel} {address : Nat} {shouldFree : Bool} :
      PageStep malloc s (.unmap address shouldFree)
        { s with paging := freePage s.paging address shouldFree }

/-- The operations one after the other. -/
def PageRun (malloc : TableSource) : List PageOp → Kernel → Kernel → Prop
  | [], s, s' => s = s'
  | op :: ops, s, s' => ∃ s₁, PageStep malloc s op s₁ ∧ PageRun malloc ops s₁ s'

/-- Each operation in turn meets the condition, in the state in which it is carried out. -/
def PagesOk (malloc : TableSource) (ok : Kernel → PageOp → Prop) : Kernel → List PageOp → Prop
  | _, [] => True
  | s, op :: ops => ok s op ∧ ∀ s₁, PageStep malloc s op s₁ → PagesOk malloc ok s₁ ops

variable {malloc : TableSource} {ok : Kernel → PageOp → Prop}

/-- What every operation under the condition preserves, a list of operations preserves. -/
theorem PageRun.invariant {I : Kernel → Prop}
    (hstep : ∀ s op s', I s → ok s op → PageStep malloc s op s' → I s') :
    ∀ {ops : List PageOp} {s s' : Kernel}, I s → PagesOk malloc ok s ops → PageRun malloc ops s s' →
      I s'
  | [], _, _, hI, _, h => by
    subst h
    exact hI
  | op :: ops, s, s', hI, ⟨hok, hrest⟩, ⟨s₁, hs, hrun⟩ =>
    PageRun.invariant hstep (hstep s op s₁ hI hok hs) (hrest s₁ hs) hrun

/-- The operations up to a point of the list meet the condition as well. -/
theorem PagesOk.left : ∀ {ops rest : List PageOp} {s : Kernel},
    PagesOk malloc ok s (ops ++ rest) → PagesOk malloc ok s ops
  | [], _, _, _ => trivial
  | _ :: _, _, _, ⟨hok, hrest⟩ => ⟨hok, fun s₁ hs => PagesOk.left (hrest s₁ hs)⟩

/-! ## Calls -/

/-- A call of the paging manager. -/
inductive PagingCall where
  | identityAllocateSingle (address : Nat) (isKernel isWriteable : Bool)
  | identityAllocateRange (startAddress endAddress : Nat) (isKernel isWriteable : Bool)
  | allocateSingle (address : Nat) (isKernel isWriteable : Bool)
  | allocateRange (startAddress endAddress : Nat) (isKernel isWriteable : Bool)
  | allocateToPhysical (virtualAddress physicalAddress : Nat) (isKernel isWriteable : Bool)
  | freeSingle (address : Nat) (shouldFree : Bool)
  | freeRange (startAddress endAddress : Nat) (shouldFree : Bool)
deriving DecidableEq, Repr

namespace PagingCall

/-- The call; `none` when it does not return. -/
def apply (malloc : TableSource) (s : Kernel) : PagingCall → Option Kernel
  | .identityAllocateSingle address k w => Xylophone.identityAllocateSingle malloc s address k w
  | .identityAllocateRange a b k w => Xylophone.identityAllocateRange malloc s a b k w
  | .allocateSingle address k w => Xylophone.allocateSingle malloc s address k w
  | .allocateRange a b k w => Xylophone.allocateRange malloc s a b k w
  | .allocateToPhysical va pa k w => Xylophone.allocateToPhysical malloc s va pa k w
  | .freeSingle address f => some { s with paging := Xylophone.freeSingle s.paging address f }
  | .freeRange a b f => (Xylophone.freeRange s.paging a b f).map fun w => { s with paging := w }

/-- The operations on single pages that the call is made of. -/
def pages : PagingCall → List PageOp
  | .identityAllocateSingle address k w => [.map address (address / 0x1000) k w]
  | .identityAllocateRange a b k w => (rangeAddresses a b).map fun x => .map x (x / 0x1000) k w
  | .allocateSingle address k w => [.map address 0 k w]
  | .allocateRange a b k w => (rangeAddresses a b).map fun x => .map x 0 k w
  | .allocateToPhysical va pa k w => [.map va (pa >>> 12) k w]
  | .freeSingle address f => [.unmap address f]
  | .freeRange a b f => (rangeAddresses a b).map fun x => .unmap x f

/-- The arguments are 32-bit words. -/
def Words : PagingCall → Prop
  | .identityAllocateSingle a _ _ | .allocateSingle a _ _ | .freeSingle a _ => a < 0x100000000
  | .identityAllocateRange a b _ _ | .allocateRange a b _ _ | .allocateToPhysical a b _ _
  | .freeRange a b _ => a < 0x100000000 ∧ b < 0x100000000

instance : (c : PagingCall) → Decidable c.Words
  | .identityAllocateSingle _ _ _ | .allocateSingle _ _ _ | .freeSingle _ _ =>
    inferInstanceAs (Decidable (_ < _))
  | .identityAllocateRange _ _ _ _ | .allocateRange _ _ _ _ | .allocateToPhysical _ _ _ _
  | .freeRange _ _ _ => inferInstanceAs (Decidable (_ ∧ _))

end PagingCall

/-- A loop over mapping operations is their run. -/
theorem pageRun_map (frameOf : Nat → Nat) (isKernel isWriteable : Bool) :
    ∀ {l : List Nat} {s s' : Kernel},
      l.foldlM (fun s a => allocatePage malloc s a (frameOf a) isKernel isWriteable) s = some s' →
      PageRun malloc (l.map fun a => .map a (frameOf a) isKernel isWriteable) s s'
  | [], _, _, h => Option.some.inj h
  | a :: l, s, s', h => by
    rw [List.foldlM_cons] at h
    obtain ⟨s₁, h1, h2⟩ := Option.bind_eq_some_iff.mp h
    exact ⟨s₁, .map h1, pageRun_map frameOf isKernel isWriteable h2⟩

/-- A loop over freeing operations is their run. -/
theorem pageRun_unmap (shouldFree : Bool) : ∀ {l : List Nat} {s : Kernel} {w : PagingWorld},
    l.foldlM (fun w a => some (freePage w a shouldFree)) s.paging = some w →
      PageRun malloc (l.map fun a => .unmap a shouldFree) s { s with paging := w }
  | [], s, w, h => by
    obtain rfl := Option.some.inj h
    rfl
  | a :: l, s, w, h => by
    rw [List.foldlM_cons] at h
    obtain ⟨w₁, h1, h2⟩ := Option.bind_eq_some_iff.mp h
    obtain rfl := Option.some.inj h1
    exact ⟨_, .unmap, pageRun_unmap (s := { s with paging := freePage s.paging a shouldFree })
      shouldFree h2⟩

/-- A single operation as a run. -/
theorem PageRun.single {op : PageOp} {s s' : Kernel} (h : PageStep malloc s op s') :
    PageRun malloc [op] s s' := ⟨s', h, rfl⟩

/-- **A call that returns is the run of its operations**, or it did nothing because the paging
manager is not up. -/
theorem PagingCall.pageRun {c : PagingCall} {s s' : Kernel} (hwords : c.Words)
    (h : c.apply malloc s = some s') : s' = s ∨ PageRun malloc c.pages s s' := by
  have hskip : ∀ {P : Prop}, some s = some s' → s' = s ∨ P :=
    fun he => Or.inl (Option.some.inj he).symm
  cases c with
  | identityAllocateSingle address k w =>
    simp only [apply, Xylophone.identityAllocateSingle] at h
    split at h
    · exact Or.inr (PageRun.single (.map h))
    · exact hskip h
  | identityAllocateRange a b k w =>
    simp only [apply, Xylophone.identityAllocateRange] at h
    split at h
    · exact Or.inr (pageRun_map (· / 0x1000) k w (rangeLoop_some hwords.2 h))
    · exact hskip h
  | allocateSingle address k w =>
    simp only [apply, Xylophone.allocateSingle] at h
    split at h
    · exact Or.inr (PageRun.single (.map h))
    · exact hskip h
  | allocateRange a b k w =>
    simp only [apply, Xylophone.allocateRange] at h
    split at h
    · exact Or.inr (pageRun_map (fun _ => 0) k w (rangeLoop_some hwords.2 h))
    · exact hskip h
  | allocateToPhysical va pa k w =>
    simp only [apply, Xylophone.allocateToPhysical] at h
    split at h
    · exact Or.inr (PageRun.single (.map h))
    · exact hskip h
  | freeSingle address f =>
    obtain rfl := Option.some.inj h
    unfold Xylophone.freeSingle
    split
    · exact Or.inr (PageRun.single .unmap)
    · exact Or.inl rfl
  | freeRange a b f =>
    obtain ⟨w, hw, rfl⟩ := Option.map_eq_some_iff.mp h
    unfold Xylophone.freeRange at hw
    split at hw
    · exact Or.inr (pageRun_unmap f (rangeLoop_some hwords.2 hw))
    · obtain rfl := Option.some.inj hw
      exact Or.inl rfl

/-- A call as a step of the system. -/
structure CallStep (malloc : TableSource) (s : Kernel) (c : PagingCall) (s' : Kernel) : Prop where
  words : c.Words
  result : c.apply malloc s = some s'

/-- A call with words for arguments, as a function. -/
def callWith (malloc : TableSource) (s : Kernel) (c : PagingCall) : Option Kernel :=
  if c.Words then c.apply malloc s else none

theorem callWith_step {s s' : Kernel} {c : PagingCall} (h : callWith malloc s c = some s') :
    CallStep malloc s c s' := by
  unfold callWith at h
  split at h
  · next hwords => exact ⟨hwords, h⟩
  · cases h

/-- **The invariant rule for calls.** -/
theorem CallStep.invariant {I : Kernel → Prop}
    (hstep : ∀ s op s', I s → ok s op → PageStep malloc s op s' → I s') {s s' : Kernel}
    {c : PagingCall} (hI : I s) (hok : PagesOk malloc ok s c.pages) (h : CallStep malloc s c s') :
    I s' := by
  rcases PagingCall.pageRun h.words h.result with rfl | hrun
  · exact hI
  · exact PageRun.invariant hstep hI hok hrun

/-- **The invariant rule for runs of calls.** -/
theorem callRun_invariant {I : Kernel → Prop}
    (hstep : ∀ s op s', I s → ok s op → PageStep malloc s op s' → I s') {s s' : Kernel} (hI : I s)
    (h : Run (CallStep malloc) (fun s c => PagesOk malloc ok s c.pages) s s') : I s' :=
  h.invariant (fun _ _ _ hs hok hc => hc.invariant hstep hs hok) hI

end Xylophone
