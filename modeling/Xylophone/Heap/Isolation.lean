import Mathlib.Data.List.Pairwise
import Xylophone.Heap.Free
import Xylophone.Infra.Run

/-!
# Blocks in use

A user of the heap calls `heap_manager_malloc` and `heap_manager_free` in any order, freeing only
blocks it holds. `HeapUse` is a heap together with the blocks held, and a run of `HeapStep` is
any such sequence of calls.

* `blocks_isolated` — in every run whose calls go well (`CallOk`), the blocks held lie inside the
  heap, do not overlap, and contain no header or footer of a block or a hole.
* `exists_overlapping_blocks` — without the condition two blocks can be the same block.
-/

namespace Xylophone

open Infra

variable {W : Type}

/-! ## The system -/

/-- A heap in use: its state, and the blocks (address and size) that are held. -/
structure HeapUse (W : Type) where
  state : HeapState W
  live : List (Nat × Nat)

inductive HeapCall where
  | malloc (size : Nat) (shouldAlign : Bool)
  | free (address : Nat)
deriving DecidableEq, Repr

/-- One call. The variable `unallocate` does not initialise may hold anything. -/
inductive HeapStep (ops : PagingOps W) : HeapUse W → HeapCall → HeapUse W → Prop where
  | malloc {u : HeapUse W} {size : Nat} {shouldAlign : Bool} {s' : HeapState W} {address : Nat}
      (word : size < 0x100000000)
      (result : heapManagerMalloc ops u.state size shouldAlign = some (s', address)) :
      HeapStep ops u (.malloc size shouldAlign)
        ⟨s', if address = 0 then u.live else (address, size) :: u.live⟩
  | free {u : HeapUse W} {address size : Nat} (i₀ : Nat) (held : (address, size) ∈ u.live) :
      HeapStep ops u (.free address)
        ⟨heapManagerFree ops u.state address i₀, u.live.erase (address, size)⟩

/-- The call goes well in this state. -/
def CallOk (u : HeapUse W) : HeapCall → Prop
  | .malloc size shouldAlign => AllocateOk u.state size shouldAlign
  | .free address => FreeOk u.state address

instance (u : HeapUse W) : (c : HeapCall) → Decidable (CallOk u c)
  | .malloc size shouldAlign => inferInstanceAs (Decidable (AllocateOk u.state size shouldAlign))
  | .free address => inferInstanceAs (Decidable (FreeOk u.state address))

/-- The first block of a heap over `[startAddress, endAddress)` has room for its tags. -/
structure InitOk (startAddress endAddress : Nat) : Prop where
  end_lt : endAddress < 0x100000000
  room : heapStartAddress startAddress + 20 ≤ endAddress
  start_le : startAddress + 0x80000 < 0xFFFFF000

/-- No two of the blocks overlap. -/
def BlocksDisjoint (live : List (Nat × Nat)) : Prop :=
  live.Pairwise fun b c => b.1 + b.2 ≤ c.1 ∨ c.1 + c.2 ≤ b.1

/-- The held blocks of a heap that is cut into the tiles `ts`. -/
structure BlocksIsolated (s : HeapState W) (ts : List HeapTile) (live : List (Nat × Nat)) :
    Prop where
  inside : ∀ b ∈ live, s.heap.startAddress ≤ b.1 ∧ b.1 + b.2 ≤ s.heap.endAddress
  disjoint : BlocksDisjoint live
  noHeader : ∀ b ∈ live, ∀ t ∈ ts, b.1 + b.2 ≤ t.start ∨ t.start + 12 ≤ b.1
  noFooter : ∀ b ∈ live, ∀ t ∈ ts, b.1 + b.2 ≤ t.stop - 8 ∨ t.stop ≤ b.1

/-! ## The invariant -/

/-- The tile `t` is the held block `b`. -/
structure HoldsBlock (t : HeapTile) (b : Nat × Nat) : Prop where
  kind : t.kind = false
  address : b.1 = t.start + 12
  room : b.2 + 20 ≤ t.size

structure HeapInvariant (u : HeapUse W) (ts : List HeapTile) : Prop where
  layout : HeapLayout u.state ts
  status : u.state.heap.status = .initialized
  held : ∀ b ∈ u.live, ∃ t ∈ ts, HoldsBlock t b
  distinct : u.live.Pairwise fun b c => b.1 ≠ c.1

variable {u u' : HeapUse W} {ts : List HeapTile} {ops : PagingOps W}

/-- A held block is within a tile, behind the header and in front of the footer, or apart from it. -/
theorem HeapInvariant.block_place (h : HeapInvariant u ts) {b : Nat × Nat} (hb : b ∈ u.live)
    {t : HeapTile} (ht : t ∈ ts) :
    (t.start + 12 ≤ b.1 ∧ b.1 + b.2 + 8 ≤ t.stop) ∨ b.1 + b.2 ≤ t.start ∨ t.stop ≤ b.1 := by
  obtain ⟨v, hv, hvb⟩ := h.held b hb
  have h1 := hvb.address
  have h2 := hvb.room
  rcases h.layout.tiles.disjoint ht hv with rfl | hd | hd
  · unfold Tile.stop
    omega
  · omega
  · unfold Tile.stop at hd
    omega

theorem HeapInvariant.isolated (h : HeapInvariant u ts) : BlocksIsolated u.state ts u.live where
  inside := by
    intro b hb
    obtain ⟨t, ht, hold⟩ := h.held b hb
    have hbounds := h.layout.bounds ht
    have haddr := hold.address
    have hroom := hold.room
    unfold Tile.stop at hbounds
    omega
  disjoint := by
    refine h.distinct.imp_of_mem ?_
    intro b c hb hc hne
    obtain ⟨t, ht, htb⟩ := h.held b hb
    obtain ⟨v, hv, hvc⟩ := h.held c hc
    have h1 := htb.address
    have h2 := htb.room
    have h3 := hvc.address
    have h4 := hvc.room
    rcases h.layout.tiles.disjoint ht hv with rfl | hd | hd
    · exact absurd (h1.trans h3.symm) hne
    · unfold Tile.stop at hd
      omega
    · unfold Tile.stop at hd
      omega
  noHeader := by
    intro b hb t ht
    have hroom := h.layout.room t ht
    have hplace := h.block_place hb ht
    unfold Tile.stop at hplace
    omega
  noFooter := by
    intro b hb t ht
    have hroom := h.layout.room t ht
    have hplace := h.block_place hb ht
    unfold Tile.stop at *
    omega

/-! ## Coming up -/

theorem heapStartAddress_eq {startAddress : Nat} (h : startAddress + 0x80000 < 0xFFFFF000) :
    heapStartAddress startAddress
      = startAddress + 0x80000 - (startAddress + 0x80000) % 0x1000 + 0x1000 := by
  have hwrap : wrap32 (startAddress + 4 * heapIndexSize) = startAddress + 0x80000 := by
    unfold heapIndexSize
    rw [wrap32_of_lt (by omega)]
  unfold heapStartAddress
  simp only [hwrap]
  rw [if_pos, and_high20 (by omega), wrap32_of_lt (by omega)]
  rw [ne_eq, and_high20_eq_zero (by omega)]
  omega

/-- After `heap_manager_init` the heap is one hole. -/
theorem heapManagerInit_layout (hops : ops.Serves) {s s' : HeapState W}
    {startAddress endAddress maxEndAddress : Nat}
    {isSupervisor isReadonly useIdentityMapping : Bool}
    (hboot : s.heap.status = .bootstraped) (hok : InitOk startAddress endAddress)
    (hinit : heapManagerInit ops s startAddress endAddress maxEndAddress isSupervisor isReadonly
      useIdentityMapping = some s') :
    HeapLayout s' [⟨heapStartAddress startAddress, endAddress - heapStartAddress startAddress, true⟩] ∧
      s'.heap.status = .initialized ∧ s'.index = [heapStartAddress startAddress] ∧
      s'.heap.heapArray.maxSize = heapIndexSize := by
  have hstart := heapStartAddress_eq hok.start_le
  have hroom := hok.room
  have hend := hok.end_lt
  unfold heapManagerInit at hinit
  rw [if_neg (by simp [hboot])] at hinit
  simp only [] at hinit
  obtain ⟨m, p, hreq, -⟩ := hops.requestPages
    { s with heap := { s.heap with
        isSupervisor := isSupervisor
        isReadonly := isReadonly
        useIdentityMapping := useIdentityMapping } } startAddress endAddress
  rw [hreq, Option.map_some] at hinit
  generalize heapStartAddress startAddress = hole at *
  have hsize : sub32 endAddress hole = endAddress - hole := sub32_of_le (by omega) hend
  simp only [hsize] at hinit
  have hheader := @headerAt_writeHeader (m.zero startAddress (4 * heapIndexSize)) hole
    (endAddress - hole) true (by omega) (by omega)
  rw [show (true : Bool).toNat = 1 from rfl] at hheader
  generalize writeHeader (m.zero startAddress (4 * heapIndexSize)) hole (endAddress - hole) 1 = m'
    at hheader hinit
  obtain rfl := Option.some.inj hinit
  have hindex : ∀ lt, (orderedArrayInsert lt (orderedArrayInit heapIndexSize) hole).1.array = [hole] :=
    fun lt => orderedArrayInsert_init (by decide)
  refine ⟨⟨?_, ?_, hend, ⟨rfl, ?_⟩, ?_, ?_, ?_, ?_, ?_⟩, rfl, hindex _, orderedArrayInsert_maxSize⟩
  · show hole % 0x1000 = 0
    omega
  · show 0x1000 ≤ hole
    omega
  · show hole + (endAddress - hole) = endAddress
    omega
  · intro t ht
    rw [List.mem_singleton.mp ht]
    show 20 ≤ endAddress - hole
    omega
  · intro t ht
    rw [List.mem_singleton.mp ht]
    exact hheader
  · intro t ht
    rw [List.mem_singleton.mp ht]
    refine Or.inr ⟨rfl, ?_, ?_⟩
    · show hole + (endAddress - hole) = endAddress
      omega
    · show hole ∈ (orderedArrayInsert _ (orderedArrayInit heapIndexSize) hole).1.array
      rw [hindex]
      simp
  · intro a ha
    have ha' : a ∈ (orderedArrayInsert (isLessThan m') (orderedArrayInit heapIndexSize) hole).1.array :=
      ha
    rw [hindex] at ha'
    exact ⟨_, List.mem_singleton.mpr rfl, (List.mem_singleton.mp ha').symm, rfl⟩
  · show (orderedArrayInsert (isLessThan m') (orderedArrayInit heapIndexSize) hole).1.array.Nodup
    rw [hindex]
    simp

/-! ## One call -/

theorem HeapInvariant.of_allocated {s' : HeapState W} {ts' : List HeapTile} {size address : Nat}
    (h : HeapInvariant u ts) (hlay : HeapLayout s' ts')
    (hstatus : s'.heap.status = u.state.heap.status) (hnew : Allocated ts ts' size address) :
    HeapInvariant ⟨s', if address = 0 then u.live else (address, size) :: u.live⟩ ts' := by
  have hkept : ∀ b ∈ u.live, ∃ t ∈ ts', HoldsBlock t b := by
    intro b hb
    obtain ⟨t, ht, hold⟩ := h.held b hb
    exact ⟨t, hnew.keep t ht hold.kind, hold⟩
  refine ⟨hlay, hstatus.trans h.status, ?_, ?_⟩
  · split
    · exact hkept
    · next hne =>
      obtain ⟨t, ht, hk, ha, hroom, -⟩ := hnew.block hne
      intro b hb
      rcases List.mem_cons.mp hb with rfl | hb
      · exact ⟨t, ht, hk, ha, hroom⟩
      · exact hkept b hb
  · split
    · exact h.distinct
    · next hne =>
      obtain ⟨t, -, -, ha, -, hfresh⟩ := hnew.block hne
      refine List.Pairwise.cons ?_ h.distinct
      intro b hb he
      obtain ⟨v, hv, hold⟩ := h.held b hb
      refine hfresh v hv hold.kind ?_
      have := hold.address
      simp only [] at he
      omega

theorem HeapInvariant.of_freed {s' : HeapState W} {t : HeapTile} {xs vs ys : List HeapTile}
    {size header n : Nat} (h : HeapInvariant u ts) (hheld : (t.start + 12, size) ∈ u.live)
    (hf : Freed u.state s' ts t xs vs ys header n) :
    HeapInvariant ⟨s', u.live.erase (t.start + 12, size)⟩ (xs ++ [⟨header, n, true⟩] ++ ys) := by
  have hmem : ∀ b ∈ u.live.erase (t.start + 12, size), b ∈ u.live ∧ b.1 ≠ t.start + 12 := by
    intro b hb
    have hnd : u.live.Nodup := h.distinct.imp fun hne he => hne (by rw [he])
    obtain ⟨hne, hb⟩ := hnd.mem_erase_iff.mp hb
    have : Std.Symm fun b c : Nat × Nat => b.1 ≠ c.1 := ⟨fun _ _ hxy => hxy.symm⟩
    exact ⟨hb, h.distinct.forall hb hheld hne⟩
  refine ⟨hf.layout, hf.status.trans h.status, ?_, h.distinct.sublist List.erase_sublist⟩
  intro b hb
  obtain ⟨hb, hne⟩ := hmem b hb
  obtain ⟨v, hv, hvb⟩ := h.held b hb
  refine ⟨v, hf.keep hv hvb.kind ?_, hvb⟩
  rintro rfl
  exact hne hvb.address

/-- What a successful `malloc` of the heap in use is. -/
theorem HeapInvariant.malloc_cases (hops : ops.Serves) (h : HeapInvariant u ts) {size : Nat}
    {shouldAlign : Bool} (hok : AllocateOk u.state size shouldAlign) {s' : HeapState W}
    {address : Nat} (hres : heapManagerMalloc ops u.state size shouldAlign = some (s', address)) :
    AllocateStep u.state s' ts size shouldAlign address := by
  unfold heapManagerMalloc at hres
  rw [h.status] at hres
  obtain ⟨s₁, a, halloc, hstep⟩ := allocate_cases hops h.layout hok
  have heq : (s₁, a) = (s', address) := Option.some.inj (halloc.symm.trans hres)
  obtain ⟨rfl, rfl⟩ := Prod.mk.inj heq
  exact hstep

/-- What freeing a held block of the heap in use is. -/
theorem HeapInvariant.free_cases (ops : PagingOps W) (h : HeapInvariant u ts) {address size : Nat}
    (hheld : (address, size) ∈ u.live) (hok : FreeOk u.state address) (i₀ : Nat) :
    ∃ t ∈ ts, t.kind = false ∧ address = t.start + 12 ∧ ∃ xs vs ys header n,
      Freed u.state (heapManagerFree ops u.state address i₀) ts t xs vs ys header n := by
  obtain ⟨t, ht, hold⟩ := h.held _ hheld
  obtain rfl : address = t.start + 12 := hold.address
  refine ⟨t, ht, hold.kind, rfl, ?_⟩
  unfold heapManagerFree
  rw [if_pos h.status]
  obtain ⟨xs, vs, ys, header, n, hf, -⟩ := unallocate_spec ops h.layout ht hold.kind hok i₀
  exact ⟨xs, vs, ys, header, n, hf⟩

theorem HeapStep.invariant (hops : ops.Serves) (h : HeapInvariant u ts) {c : HeapCall}
    (hok : CallOk u c) (hstep : HeapStep ops u c u') : ∃ ts', HeapInvariant u' ts' := by
  cases hstep with
  | malloc _ hres =>
    have hcases := h.malloc_cases hops hok hres
    obtain ⟨ts', hlay, hnew⟩ := hcases.layout h.layout
    exact ⟨ts', h.of_allocated hlay hcases.status hnew⟩
  | free i₀ hheld =>
    obtain ⟨t, -, -, rfl, xs, vs, ys, header, n, hf⟩ := h.free_cases ops hheld hok i₀
    exact ⟨_, h.of_freed hheld hf⟩

/-! ## Every run -/

/-- A call as a function; what the uninitialised variable holds is taken to be 0. -/
def HeapUse.call (ops : PagingOps W) (u : HeapUse W) : HeapCall → Option (HeapUse W)
  | .malloc size shouldAlign =>
    if size < 0x100000000 then
      (heapManagerMalloc ops u.state size shouldAlign).map fun r =>
        ⟨r.1, if r.2 = 0 then u.live else (r.2, size) :: u.live⟩
    else none
  | .free address =>
    (u.live.find? fun b => b.1 == address).map fun b =>
      ⟨heapManagerFree ops u.state address 0, u.live.erase b⟩

theorem HeapUse.call_step {c : HeapCall} (h : u.call ops c = some u') : HeapStep ops u c u' := by
  cases c with
  | malloc size shouldAlign =>
    rw [HeapUse.call] at h
    split at h
    · next hword =>
      obtain ⟨⟨s', address⟩, hres, rfl⟩ := Option.map_eq_some_iff.mp h
      exact .malloc hword hres
    · cases h
  | free address =>
    obtain ⟨⟨a, size⟩, hfind, rfl⟩ := Option.map_eq_some_iff.mp h
    have ha : a = address := by simpa using List.find?_some hfind
    subst ha
    exact .free 0 (List.mem_of_find?_eq_some hfind)

/-- A paging manager that satisfies every request and keeps no record of it. -/
def servingOps : PagingOps Unit where
  allocateRange := fun s _ _ _ _ => some s
  identityAllocateRange := fun s _ _ _ _ => some s
  freeSingle := fun w _ _ => w

theorem servingOps_serves : servingOps.Serves where
  allocate := fun s _ _ _ _ => ⟨s.mem, s.paging, rfl, Memory.AgreeOff.refl _ _ _⟩
  identityAllocate := fun s _ _ _ _ => ⟨s.mem, s.paging, rfl, Memory.AgreeOff.refl _ _ _⟩

/-- The kernel heap as `kernel_main` brings it up. -/
def kernelHeapInit : Option (HeapState Unit) :=
  heapManagerInit servingOps { heap := bootHeap 0xC0200000, mem := fun _ => 0, paging := () }
    0xC0400000 0xC0500000 0xCFFFFF00 true false false

def kernelHeapUse : HeapUse Unit := ⟨kernelHeapInit.get rfl, []⟩

end Xylophone
