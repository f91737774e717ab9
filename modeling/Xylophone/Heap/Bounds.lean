import Xylophone.Heap.Expansion

/-!
# The bounds of the heap

A call of the heap moves its end in `expand`, `contract` and `heap_manager_free_all` only, and only
there it asks for pages or gives pages back. For each call: where the end of the heap is afterwards,
and what the paging manager was asked for.

* `heapManagerMalloc_cases` — an allocation keeps the bounds or expands the heap
* `heapManagerFree_cases` — a free keeps the bounds or contracts the heap
* `heapManagerFreeAll_reset` — the heap is reset to `HEAP_MIN_SIZE`
* `heapManagerInit_cases` — the heap gets its bounds
-/

namespace Xylophone

open Infra

variable {W : Type} {ops : PagingOps W} {s s' s'' : HeapState W} {size address : Nat}
  {shouldAlign : Bool}

/-! ## The same bounds -/

/-- The heap has the same bounds, and no page was mapped or freed. -/
structure SameBounds (s s' : HeapState W) : Prop where
  status : s'.heap.status = s.heap.status
  startAddress : s'.heap.startAddress = s.heap.startAddress
  endAddress : s'.heap.endAddress = s.heap.endAddress
  maxEndAddress : s'.heap.maxEndAddress = s.heap.maxEndAddress
  paging : s'.paging = s.paging

namespace SameBounds

theorem refl (s : HeapState W) : SameBounds s s := ⟨rfl, rfl, rfl, rfl, rfl⟩

theorem trans (h : SameBounds s s') (h' : SameBounds s' s'') : SameBounds s s'' :=
  ⟨h'.status.trans h.status, h'.startAddress.trans h.startAddress,
    h'.endAddress.trans h.endAddress, h'.maxEndAddress.trans h.maxEndAddress,
    h'.paging.trans h.paging⟩

theorem ite {p : Prop} [Decidable p] (h : SameBounds s s') (h' : SameBounds s s'') :
    SameBounds s (if p then s' else s'') := by
  split
  · exact h
  · exact h'

/-- Memory is written. -/
theorem write (s : HeapState W) (m : Memory) : SameBounds s { s with mem := m } :=
  ⟨rfl, rfl, rfl, rfl, rfl⟩

theorem insertHole (s : HeapState W) (header : Nat) : SameBounds s (insertHole s header) :=
  ⟨rfl, rfl, rfl, rfl, rfl⟩

theorem removeHole (s : HeapState W) (index : Nat) : SameBounds s (removeHole s index) :=
  ⟨rfl, rfl, rfl, rfl, rfl⟩

theorem placeBlock (s : HeapState W) (pos holeSize size newSize : Nat) :
    SameBounds s (placeBlock s pos holeSize size newSize).1 := by
  unfold Xylophone.placeBlock
  exact SameBounds.ite ((write s _).trans (insertHole _ _)) (write s _)

theorem carve (s : HeapState W) (i size newSize : Nat) (shouldAlign : Bool) :
    SameBounds s (carve s i size newSize shouldAlign).1 := by
  unfold Xylophone.carve
  simp only []
  split
  · exact (write s _).trans (placeBlock _ _ _ _ _)
  · exact (removeHole s i).trans (placeBlock _ _ _ _ _)

theorem allocateAgain (s : HeapState W) (size : Nat) (shouldAlign : Bool) :
    SameBounds s (allocateAgain s size shouldAlign).1 := by
  unfold Xylophone.allocateAgain
  simp only []
  split
  · exact refl s
  · exact carve ..

theorem absorbExpansion (s : HeapState W) (oldEndAddress oldLength : Nat) :
    SameBounds s (absorbExpansion s oldEndAddress oldLength) := by
  unfold Xylophone.absorbExpansion
  simp only []
  split
  · exact (write s _).trans (insertHole _ _)
  · exact write s _

theorem mergeRight (s : HeapState W) (header footer i : Nat) :
    SameBounds s (mergeRight s header footer i).1 := by
  unfold Xylophone.mergeRight
  split
  · exact (write s _).trans (removeHole _ _)
  · exact refl s

theorem shrinkHole (s : HeapState W) (header testHeader i removed : Nat) :
    SameBounds s (shrinkHole s header testHeader i removed) := by
  unfold Xylophone.shrinkHole
  simp only []
  split
  · exact write s _
  · exact SameBounds.ite (removeHole _ _) (refl s)

end SameBounds

/-! ## `heap_manager_malloc` -/

/-- The end of the heap is moved. -/
def HeapState.moveEnd (s : HeapState W) (endAddress : Nat) : HeapState W :=
  { s with heap := { s.heap with endAddress := endAddress } }

/-- What an allocation does to the bounds. -/
inductive MallocResult (ops : PagingOps W) (s : HeapState W) (size : Nat) (shouldAlign : Bool)
    (s' : HeapState W) : Prop where
  | kept (same : SameBounds s s')
  | grown (expands : Expands s size shouldAlign) (s₁ : HeapState W)
    (request : requestPages ops s s.heap.endAddress (grownEnd s size) = some s₁)
    (same : SameBounds (s₁.moveEnd (wrap32 (s₁.heap.startAddress + roundToPage (newLength s size))))
      s')

/-- **An allocation keeps the bounds or expands the heap.** -/
theorem heapManagerMalloc_cases
    (h : heapManagerMalloc ops s size shouldAlign = some (s', address)) :
    MallocResult ops s size shouldAlign s' := by
  unfold heapManagerMalloc at h
  split at h
  · next hstatus =>
    unfold allocate at h
    simp only [] at h
    split at h
    · obtain ⟨rfl, -⟩ := Prod.mk.inj (Option.some.inj h)
      exact .kept (SameBounds.carve ..)
    next hnone =>
    split at h
    · obtain ⟨rfl, -⟩ := Prod.mk.inj (Option.some.inj h)
      exact .kept (SameBounds.refl s)
    next hlimit =>
    obtain ⟨s₂, hexpand, heq⟩ := Option.map_eq_some_iff.mp h
    obtain ⟨rfl, -⟩ := Prod.mk.inj heq
    have hrest := (SameBounds.absorbExpansion s₂ s.heap.endAddress
      (sub32 s.heap.endAddress s.heap.startAddress)).trans
        (SameBounds.allocateAgain _ size shouldAlign)
    by_cases hpos : newLength s size = 0
    · unfold expand at hexpand
      obtain rfl := Option.some.inj ((if_pos hpos).symm.trans hexpand)
      exact .kept hrest
    · obtain ⟨s₁, hrequest, rfl⟩ :=
        Option.map_eq_some_iff.mp ((expand_of_pos hpos).symm.trans hexpand)
      exact .grown ⟨hstatus, hnone, Nat.le_of_not_lt hlimit, hpos⟩ s₁ hrequest hrest
  · obtain ⟨rfl, -⟩ := Prod.mk.inj (Option.some.inj h)
    exact .kept ⟨rfl, rfl, rfl, rfl, rfl⟩
  · obtain ⟨rfl, -⟩ := Prod.mk.inj (Option.some.inj h)
    exact .kept (SameBounds.refl s)

/-! ## `heap_manager_free` -/

/-- The length that `unallocate` passes to `contract`, when the hole reaches the end of the heap. -/
def contraction (s : HeapState W) (address : Nat) : Option Nat :=
  if s.heap.status = .initialized ∧ address ≠ 0 then
    let header := sub32 address 12
    let footer := sub32 (wrap32 (header + headerSize s.mem header)) 8
    let l := mergeLeft (setHeaderIsHole s.mem header 1) header footer
    let r := mergeRight { s with mem := l.1 } l.2 footer 0
    if wrap32 (r.2.1 + 8) = s.heap.endAddress then some (sub32 l.2 s.heap.startAddress) else none
  else none

/-- The addresses that `contract` frees, from `i` on. -/
def contractAddresses (newSize : Nat) : (fuel i : Nat) → List Nat
  | 0, _ => []
  | fuel + 1, i =>
    if newSize < i then i :: contractAddresses newSize fuel (sub32 i 0x1000) else []

/-- The addresses that `contract` frees. They are offsets into the heap. -/
def contractedAddresses (s : HeapState W) (newSize : Nat) : List Nat :=
  let i := sub32 (sub32 s.heap.endAddress s.heap.startAddress) 0x1000
  contractAddresses (contractedLength newSize) (i / 0x1000 + 1) i

/-- The end of the heap after `contract`. -/
def contractedEnd (s : HeapState W) (newSize : Nat) : Nat :=
  wrap32 (s.heap.startAddress + contractedLength newSize)

/-- The pages of these addresses are freed, one after the other. -/
def freeAddresses (freeSingle : W → Nat → Bool → W) (w : W) (addresses : List Nat) : W :=
  addresses.foldl (fun w a => freeSingle w a true) w

theorem contractLoop_eq (freeSingle : W → Nat → Bool → W) (newSize : Nat) :
    ∀ (fuel i : Nat) (w : W), contractLoop freeSingle newSize fuel i w =
      freeAddresses freeSingle w (contractAddresses newSize fuel i)
  | 0, _, _ => rfl
  | fuel + 1, i, w => by
    unfold contractLoop contractAddresses
    by_cases h : newSize < i
    · rw [if_pos h, if_pos h, contractLoop_eq freeSingle newSize fuel]
      rfl
    · rw [if_neg h, if_neg h]
      rfl

/-- What `contract` does to the bounds and the pages. -/
structure Contracted (ops : PagingOps W) (s : HeapState W) (newSize : Nat) (s' : HeapState W) :
    Prop where
  status : s'.heap.status = s.heap.status
  startAddress : s'.heap.startAddress = s.heap.startAddress
  endAddress : s'.heap.endAddress = contractedEnd s newSize
  maxEndAddress : s'.heap.maxEndAddress = s.heap.maxEndAddress
  paging : s'.paging = freeAddresses ops.freeSingle s.paging (contractedAddresses s newSize)

theorem contracted_contract (ops : PagingOps W) (s : HeapState W) (newSize : Nat) :
    Contracted ops s newSize (contract ops s newSize).1 where
  status := rfl
  startAddress := rfl
  endAddress := rfl
  maxEndAddress := rfl
  paging := by
    unfold contract contractPages contractedAddresses
    dsimp only
    rw [contractLoop_eq]

theorem Contracted.trans {newSize : Nat} (h : Contracted ops s newSize s')
    (h' : SameBounds s' s'') : Contracted ops s newSize s'' :=
  ⟨h'.status.trans h.status, h'.startAddress.trans h.startAddress,
    h'.endAddress.trans h.endAddress, h'.maxEndAddress.trans h.maxEndAddress,
    h'.paging.trans h.paging⟩

/-- Contracting depends on the bounds and the pages only. -/
theorem SameBounds.contracted {newSize : Nat} (h : SameBounds s s')
    (h' : Contracted ops s' newSize s'') : Contracted ops s newSize s'' where
  status := h'.status.trans h.status
  startAddress := h'.startAddress.trans h.startAddress
  endAddress := by
    rw [h'.endAddress, contractedEnd, h.startAddress]
    rfl
  maxEndAddress := h'.maxEndAddress.trans h.maxEndAddress
  paging := by
    rw [h'.paging, contractedAddresses, h.startAddress, h.endAddress, h.paging]
    rfl

/-- The counter `i` of `unallocate` does not matter for where the hole ends. -/
theorem mergeRight_footer (s : HeapState W) (header footer i j : Nat) :
    (mergeRight s header footer i).2.1 = (mergeRight s header footer j).2.1 := by
  unfold mergeRight
  split <;> rfl

/-- What a free does to the bounds. -/
inductive FreeResult (ops : PagingOps W) (s : HeapState W) (address : Nat) (s' : HeapState W) :
    Prop where
  | kept (same : SameBounds s s')
  | contracted (newSize : Nat) (contraction : contraction s address = some newSize)
    (result : Contracted ops s newSize s')

/-- **A free keeps the bounds or contracts the heap.** -/
theorem heapManagerFree_cases (ops : PagingOps W) (s : HeapState W) (address i₀ : Nat) :
    FreeResult ops s address (heapManagerFree ops s address i₀) := by
  unfold heapManagerFree
  by_cases hstatus : s.heap.status = .initialized
  swap
  · rw [if_neg hstatus]
    exact .kept (SameBounds.refl s)
  rw [if_pos hstatus]
  unfold unallocate
  by_cases haddress : address = 0
  · rw [if_pos haddress]
    exact .kept (SameBounds.refl s)
  have hcontraction : contraction s address = _ := if_pos ⟨hstatus, haddress⟩
  rw [if_neg haddress]
  simp only [] at hcontraction ⊢
  generalize sub32 address 12 = header at hcontraction ⊢
  generalize sub32 (wrap32 (header + headerSize s.mem header)) 8 = footer at hcontraction ⊢
  generalize mergeLeft (setHeaderIsHole s.mem header 1) header footer = l at hcontraction ⊢
  rw [mergeRight_footer _ l.2 footer 0 i₀] at hcontraction
  have hmerge : SameBounds s (mergeRight { s with mem := l.1 } l.2 footer i₀).1 :=
    (SameBounds.write s l.1).trans (SameBounds.mergeRight ..)
  generalize mergeRight { s with mem := l.1 } l.2 footer i₀ = r at hmerge hcontraction ⊢
  rw [hmerge.endAddress]
  by_cases hend : wrap32 (r.2.1 + 8) = s.heap.endAddress
  · rw [if_pos hend] at hcontraction ⊢
    refine .contracted _ hcontraction ?_
    have hrelease : Contracted ops s (sub32 l.2 s.heap.startAddress)
        (releaseEnd ops r.1 l.2 (wrap32 (footer + 64)) r.2.2) := by
      unfold releaseEnd
      rw [hmerge.startAddress]
      exact (hmerge.contracted (contracted_contract ..)).trans (SameBounds.shrinkHole ..)
    split
    · exact hrelease.trans (SameBounds.insertHole ..)
    · exact hrelease
  · rw [if_neg hend]
    exact .kept (SameBounds.ite (hmerge.trans (SameBounds.insertHole ..)) hmerge)

/-! ## `heap_manager_free_all` -/

/-- The addresses that the loop of `heap_manager_free_all` frees, from `addr` on. -/
def resetAddresses (endAddress : Nat) : (fuel addr : Nat) → List Nat
  | 0, _ => []
  | fuel + 1, addr =>
    if addr < endAddress then
      addr :: resetAddresses endAddress fuel (wrap32 (addr + 0x1000))
    else []

/-- The end of the heap after `heap_manager_free_all`. -/
def resetEnd (s : HeapState W) : Nat := wrap32 (s.heap.startAddress + heapMinSize)

/-- The addresses that `heap_manager_free_all` frees. -/
def freedByReset (s : HeapState W) : List Nat :=
  if heapMinSize < sub32 s.heap.endAddress s.heap.startAddress then
    resetAddresses s.heap.endAddress 0x100001 (resetEnd s)
  else []

theorem freeAllLoop_some {freeSingle : W → Nat → Bool → W} {endAddress : Nat} :
    ∀ {fuel addr : Nat} {w w' : W}, freeAllLoop freeSingle endAddress fuel addr w = some w' →
      w' = freeAddresses freeSingle w (resetAddresses endAddress fuel addr)
  | 0, _, _, _, h => by cases h
  | fuel + 1, addr, w, w', h => by
    unfold freeAllLoop at h
    unfold resetAddresses
    split at h
    · next hlt =>
      rw [if_pos hlt]
      exact freeAllLoop_some h
    · next hge =>
      obtain rfl := Option.some.inj h
      rw [if_neg hge]
      rfl

/-- What `heap_manager_free_all` does to the bounds and the pages. -/
structure ResetDone (ops : PagingOps W) (s s' : HeapState W) : Prop where
  status : s'.heap.status = s.heap.status
  startAddress : s'.heap.startAddress = s.heap.startAddress
  endAddress : s'.heap.endAddress = resetEnd s
  maxEndAddress : s'.heap.maxEndAddress = s.heap.maxEndAddress
  paging : s'.paging = freeAddresses ops.freeSingle s.paging (freedByReset s)

theorem ResetDone.trans (h : ResetDone ops s s') (h' : SameBounds s' s'') : ResetDone ops s s'' :=
  ⟨h'.status.trans h.status, h'.startAddress.trans h.startAddress,
    h'.endAddress.trans h.endAddress, h'.maxEndAddress.trans h.maxEndAddress,
    h'.paging.trans h.paging⟩

theorem resetDone_of (s : HeapState W) (m : Memory) (oa : OrderedArray Nat) {endAddress : Nat}
    {paging : W} (hend : endAddress = resetEnd s)
    (hpaging : paging = freeAddresses ops.freeSingle s.paging (freedByReset s)) :
    ResetDone ops s
      { heap := { s.heap with endAddress := endAddress, heapArray := oa }
        mem := m
        paging := paging } := ⟨rfl, rfl, hend, rfl, hpaging⟩

/-- **`heap_manager_free_all` resets the heap.** -/
theorem heapManagerFreeAll_reset (hstatus : s.heap.status = .initialized)
    (h : heapManagerFreeAll ops s = some s') : ResetDone ops s s' := by
  unfold heapManagerFreeAll at h
  rw [if_neg (not_not.mpr hstatus)] at h
  obtain ⟨paging, hpaging, rfl⟩ := Option.map_eq_some_iff.mp h
  have hfreed : paging = freeAddresses ops.freeSingle s.paging (freedByReset s) := by
    unfold freedByReset
    split at hpaging
    · next hlt =>
      rw [if_pos hlt]
      exact freeAllLoop_some hpaging
    · next hle =>
      rw [if_neg hle]
      exact (Option.some.inj hpaging).symm
  exact (resetDone_of s _ _ rfl hfreed).trans (SameBounds.insertHole ..)

/-- It does nothing when there is no heap. -/
theorem heapManagerFreeAll_cases (h : heapManagerFreeAll ops s = some s') :
    s' = s ∨ s.heap.status = .initialized ∧ ResetDone ops s s' := by
  by_cases hstatus : s.heap.status = .initialized
  · exact Or.inr ⟨hstatus, heapManagerFreeAll_reset hstatus h⟩
  · unfold heapManagerFreeAll at h
    rw [if_pos hstatus] at h
    exact Or.inl (Option.some.inj h).symm

/-- The loop ends when the address does not wrap around before it reaches the end. -/
theorem freeAllLoop_isSome {freeSingle : W → Nat → Bool → W} {endAddress : Nat}
    (hroom : endAddress ≤ 0xFFFFF000) (fuel : Nat) {addr : Nat} (w : W)
    (hfuel : endAddress ≤ addr + fuel * 0x1000) :
    ∃ w', freeAllLoop freeSingle endAddress (fuel + 1) addr w = some w' := by
  induction fuel generalizing addr w with
  | zero =>
    rw [freeAllLoop, if_neg (by omega)]
    exact ⟨w, rfl⟩
  | succ fuel ih =>
    rw [freeAllLoop]
    split
    · next hlt =>
      refine ih _ ?_
      rw [wrap32_of_lt (by omega)]
      omega
    · exact ⟨w, rfl⟩

theorem heapManagerFreeAll_isSome (hroom : s.heap.endAddress ≤ 0xFFFFF000) :
    ∃ s', heapManagerFreeAll ops s = some s' := by
  unfold heapManagerFreeAll
  split
  · exact ⟨s, rfl⟩
  dsimp only
  split
  · obtain ⟨w', hloop⟩ := @freeAllLoop_isSome _ ops.freeSingle _ hroom 0x100000
      (wrap32 (s.heap.startAddress + heapMinSize)) s.paging (by omega)
    rw [hloop]
    exact ⟨_, rfl⟩
  · exact ⟨_, rfl⟩

/-! ## `heap_manager_init` -/

/-- The bounds and the pages that `heap_manager_init` leaves, once it has its pages. -/
structure InitDone (s s' : HeapState W) (startAddress endAddress maxEndAddress : Nat) : Prop where
  status : s'.heap.status = .initialized
  startAddress : s'.heap.startAddress = startAddress
  endAddress : s'.heap.endAddress = endAddress
  maxEndAddress : s'.heap.maxEndAddress = maxEndAddress
  paging : s'.paging = s.paging

/-- **`heap_manager_init` asks for the pages of the heap and sets its bounds.** -/
theorem heapManagerInit_cases {startAddress endAddress maxEndAddress : Nat}
    {isSupervisor isReadonly useIdentityMapping : Bool} (hboot : s.heap.status = .bootstraped)
    (h : heapManagerInit ops s startAddress endAddress maxEndAddress isSupervisor isReadonly
      useIdentityMapping = some s') :
    ∃ s₁, requestPages ops (initFlags s isSupervisor isReadonly useIdentityMapping) startAddress
        endAddress = some s₁ ∧
      InitDone s₁ s' (heapStartAddress startAddress) endAddress maxEndAddress := by
  unfold heapManagerInit at h
  rw [if_neg (by simp [hboot])] at h
  simp only [] at h
  obtain ⟨s₁, hrequest, hs'⟩ := Option.map_eq_some_iff.mp h
  refine ⟨s₁, hrequest, ?_⟩
  generalize heapStartAddress startAddress = hole at hs' ⊢
  generalize writeHeader (s₁.mem.zero startAddress (4 * heapIndexSize)) hole
    (sub32 endAddress hole) 1 = m at hs'
  subst hs'
  exact ⟨rfl, rfl, rfl, rfl, by rw [insertHole_paging]⟩

end Xylophone
