import Xylophone.Data.OrderedArray
import Xylophone.Heap.Structures

/-!
# `heap-manager.c`

The kernel heap: a best-fit allocator with boundary tags in the heap's own memory and an index
of its holes ordered by size. `PAGE_SIZE` is written `0x1000`, `sizeof(heap_header_t)` 12,
`sizeof(heap_footer_t)` 8.

The heap asks a paging manager for pages. `PagingOps` is that interface. A call to it may come
back into the heap (the page tables of the kernel are allocated from the kernel heap), so a
mapping call runs on the whole state. A mapping call may also never return, which is `none`;
the functions that make such calls return an `Option` for this reason only.

Left out: the `physical_address` out-parameter of `heap_manager_malloc`, which is `NULL` in
every call of the kernel.
-/

namespace Xylophone

open Infra

/-- `heap_status_enum_t`. -/
inductive HeapStatus where
  | uninitialized
  | bootstraped
  | initialized
deriving DecidableEq, Repr

/-- `HEAP_INDEX_SIZE`, the number of holes the index has room for. -/
def heapIndexSize : Nat := 0x20000

/-- `HEAP_MIN_SIZE`. -/
def heapMinSize : Nat := 0x70000

/-- `heap_manager_t`. -/
structure HeapManager where
  placementAddress : Nat
  status : HeapStatus
  isSupervisor : Bool
  isReadonly : Bool
  useIdentityMapping : Bool
  startAddress : Nat
  endAddress : Nat
  maxEndAddress : Nat
  heapArray : OrderedArray Nat

/-- The heap's record, the memory it manages, and the world behind its paging manager. -/
structure HeapState (W : Type) where
  heap : HeapManager
  mem : Memory
  paging : W

/-- The functions of `paging-manager.c` that the heap calls. -/
structure PagingOps (W : Type) where
  allocateRange : HeapState W → (startAddress endAddress : Nat) → (isKernel isWriteable : Bool) →
    Option (HeapState W)
  identityAllocateRange : HeapState W → (startAddress endAddress : Nat) →
    (isKernel isWriteable : Bool) → Option (HeapState W)
  freeSingle : W → (address : Nat) → (shouldFree : Bool) → W

variable {W : Type}

/-- `is_less_than`: two headers are compared by their sizes. -/
def isLessThan (m : Memory) (a b : Nat) : Bool := decide (headerSize m a < headerSize m b)

/-- Insert a header into the index; the sizes are read from the memory of the state. -/
def insertHole (s : HeapState W) (header : Nat) : HeapState W :=
  { s with
    heap := { s.heap with
      heapArray := (orderedArrayInsert (isLessThan s.mem) s.heap.heapArray header).1 } }

/-- Remove the entry at `index` from the index. -/
def removeHole (s : HeapState W) (index : Nat) : HeapState W :=
  { s with heap := { s.heap with heapArray := orderedArrayRemove s.heap.heapArray index } }

/-! ## Coming up -/

/-- `heap_manager_bootstrap`. -/
def heapManagerBootstrap (heap : HeapManager) (endAddress : Nat) : HeapManager :=
  if heap.status = .uninitialized then
    { heap with placementAddress := endAddress, status := .bootstraped }
  else heap

/-- A heap that `heap_manager_bootstrap` has just brought up. -/
def bootHeap (placementAddress : Nat) : HeapManager :=
  heapManagerBootstrap
    { placementAddress := 0, status := .uninitialized, isSupervisor := false, isReadonly := false
      useIdentityMapping := false, startAddress := 0, endAddress := 0, maxEndAddress := 0
      heapArray := orderedArrayInit 0 } placementAddress

/-- Ask the paging manager for the pages of a range, in the way the heap is set up for. -/
def requestPages (ops : PagingOps W) (s : HeapState W) (startAddress endAddress : Nat) :
    Option (HeapState W) :=
  if s.heap.useIdentityMapping then
    ops.identityAllocateRange s startAddress endAddress s.heap.isSupervisor (!s.heap.isReadonly)
  else ops.allocateRange s startAddress endAddress s.heap.isSupervisor (!s.heap.isReadonly)

/-- The first block starts on the page after the index. -/
def heapStartAddress (startAddress : Nat) : Nat :=
  let address := wrap32 (startAddress + 4 * heapIndexSize)
  if address &&& 0xFFFFF000 ≠ 0 then wrap32 ((address &&& 0xFFFFF000) + 0x1000) else address

/-- `heap_manager_init`. -/
def heapManagerInit (ops : PagingOps W) (s : HeapState W)
    (startAddress endAddress maxEndAddress : Nat)
    (isSupervisor isReadonly useIdentityMapping : Bool) : Option (HeapState W) :=
  if s.heap.status ≠ .bootstraped then some s
  else
    let s := { s with
      heap := { s.heap with
        isSupervisor := isSupervisor
        isReadonly := isReadonly
        useIdentityMapping := useIdentityMapping } }
    (requestPages ops s startAddress endAddress).map fun s =>
      let hole := heapStartAddress startAddress
      let mem := s.mem.zero startAddress (4 * heapIndexSize)
      let s := { s with
        heap := { s.heap with
          startAddress := hole
          endAddress := endAddress
          maxEndAddress := maxEndAddress
          heapArray := orderedArrayInit heapIndexSize }
        mem := writeHeader mem hole (sub32 endAddress hole) 1 }
      let s := insertHole s hole
      { s with heap := { s.heap with status := .initialized } }

/-! ## Finding a hole -/

/-- Whether the scan of `find_smallest_hole` stops at a hole of `holeSize` bytes at `header`. -/
def sizeFits (size : Nat) (shouldAlign : Bool) (header holeSize : Nat) : Bool :=
  if shouldAlign then
    let holeStart := wrap32 (header + 12)
    let offset := if holeStart &&& 0xFFF ≠ 0 then 0x1000 - (holeStart &&& 0xFFF) else 0
    -- both sides are signed
    decide (toInt32 size ≤ toInt32 (sub32 holeSize offset))
  else decide (size ≤ holeSize)

def holeFits (m : Memory) (size : Nat) (shouldAlign : Bool) (header : Nat) : Bool :=
  sizeFits size shouldAlign header (headerSize m header)

/-- `find_smallest_hole`: the place in the index of the first hole that fits, `none` for -1. -/
def findSmallestHole (s : HeapState W) (size : Nat) (shouldAlign : Bool) : Option Nat :=
  s.heap.heapArray.array.findIdx? (holeFits s.mem size shouldAlign)

/-! ## Growing and shrinking -/

/-- Round a length up to a whole number of pages. -/
def roundToPage (length : Nat) : Nat :=
  if length &&& 0xFFF ≠ 0 then wrap32 ((length &&& 0xFFFFF000) + 0x1000) else length

theorem roundToPage_eq_wrap {n : Nat} (h : n < 0x100000000) :
    roundToPage n = wrap32 (pagesFor n) := by
  unfold roundToPage pagesFor
  rw [and_low12, and_high20 h]
  split
  · congr 1
    omega
  · rw [wrap32_of_lt (by omega)]
    omega

theorem roundToPage_eq {n : Nat} (h : pagesFor n < 0x100000000) : roundToPage n = pagesFor n := by
  rw [roundToPage_eq_wrap (Nat.lt_of_le_of_lt (le_pagesFor n) h), wrap32_of_lt h]

/-- `expand`. -/
def expand (ops : PagingOps W) (s : HeapState W) (newLength : Nat) : Option (HeapState W) :=
  if newLength = 0 then some s
  else
    let newEnd := wrap32 (s.heap.startAddress + roundToPage newLength)
    (requestPages ops s s.heap.endAddress newEnd).map fun s =>
      { s with heap := { s.heap with
          endAddress := wrap32 (s.heap.startAddress + roundToPage newLength) } }

/-- The loop of `contract`. It steps down by a page and stays above `newSize`. -/
def contractLoop (freeSingle : W → Nat → Bool → W) (newSize : Nat) : (fuel i : Nat) → W → W
  | 0, _, w => w
  | fuel + 1, i, w =>
    if newSize < i then
      contractLoop freeSingle newSize fuel (sub32 i 0x1000) (freeSingle w i true)
    else w

/-- The length `contract` leaves: a whole number of pages, at least `HEAP_MIN_SIZE`. -/
def contractedLength (newSize : Nat) : Nat :=
  if roundToPage newSize < heapMinSize then heapMinSize else roundToPage newSize

theorem heapMinSize_le_contractedLength (n : Nat) : 0x70000 ≤ contractedLength n := by
  unfold contractedLength heapMinSize
  split <;> omega

/-- The pages that `contract` frees. The addresses it passes are offsets into the heap. -/
def contractPages (freeSingle : W → Nat → Bool → W) (newSize oldSize : Nat) (w : W) : W :=
  let i := sub32 oldSize 0x1000
  contractLoop freeSingle newSize (i / 0x1000 + 1) i w

/-- `contract`. -/
def contract (ops : PagingOps W) (s : HeapState W) (newSize : Nat) : HeapState W × Nat :=
  let length := contractedLength newSize
  let oldSize := sub32 s.heap.endAddress s.heap.startAddress
  ({ s with
     heap := { s.heap with endAddress := wrap32 (s.heap.startAddress + length) }
     paging := contractPages ops.freeSingle length oldSize s.paging }, length)

/-! ## Allocation -/

/-- The search of `allocate` for the entry with the highest address. -/
def highestHoleLoop : List Nat → (i value : Nat) → Option Nat → Option Nat
  | [], _, _, idx => idx
  | tmp :: rest, i, value, idx =>
    if value < tmp then highestHoleLoop rest (i + 1) tmp (some i)
    else highestHoleLoop rest (i + 1) value idx

def highestHole (array : List Nat) : Option Nat := highestHoleLoop array 0 0 none

/-- After an expansion: the new space goes to the highest hole, or becomes a hole of its own. -/
def absorbExpansion (s : HeapState W) (oldEndAddress oldLength : Nat) : HeapState W :=
  let newLength := sub32 s.heap.endAddress s.heap.startAddress
  let growth := sub32 newLength oldLength
  match highestHole s.heap.heapArray.array with
  | none =>
    let m := writeHeader s.mem oldEndAddress growth 1
    let footer := sub32 (wrap32 (oldEndAddress + growth)) 8
    insertHole { s with mem := writeFooter m footer oldEndAddress } oldEndAddress
  | some idx =>
    let header := orderedArrayGet s.heap.heapArray idx
    let m := setHeaderSize s.mem header (wrap32 (headerSize s.mem header + growth))
    let footer := sub32 (wrap32 (header + headerSize m header)) 8
    { s with mem := writeFooter m footer header }

/--
The end of `allocate`: a block of `newSize` bytes (a payload of `size`) at the front of the
`holeSize` bytes at `pos`, and a hole made of what is left.
-/
def placeBlock (s : HeapState W) (pos holeSize size newSize : Nat) : HeapState W × Nat :=
  let m := writeHeader s.mem pos newSize 0
  let m := writeFooter m (wrap32 (pos + 12 + size)) pos
  let s := { s with mem := m }
  let rest := sub32 holeSize newSize
  let s :=
    if 0 < rest then
      let hole := wrap32 (pos + 12 + size + 8)
      let m := writeHeader s.mem hole rest 1
      let footer := sub32 (wrap32 (hole + rest)) 8
      let m := if footer < s.heap.endAddress then writeFooter m footer hole else m
      insertHole { s with mem := m } hole
    else s
  (s, wrap32 (pos + 12))

/-- `allocate`, once `find_smallest_hole` has returned the entry `i`. -/
def carve (s : HeapState W) (i size newSize : Nat) (shouldAlign : Bool) : HeapState W × Nat :=
  let pos := orderedArrayGet s.heap.heapArray i
  let holeSize := headerSize s.mem pos
  let leftover := sub32 holeSize newSize
  -- a remainder too small for its own tags stays with the block
  let payload := if leftover < 20 then wrap32 (size + leftover) else size
  let blockSize := if leftover < 20 then holeSize else newSize
  if shouldAlign ∧ pos &&& 0xFFFFF000 ≠ 0 then
    -- the front of the hole, up to the page boundary less a header, keeps the entry `i`
    let size2 := sub32 (0x1000 - (pos &&& 0xFFF)) 12
    let m := writeHeader s.mem pos size2 1
    let m := writeFooter m (sub32 (wrap32 (pos + size2)) 8) pos
    placeBlock { s with mem := m } (wrap32 (pos + size2)) (sub32 holeSize size2) payload blockSize
  else placeBlock (removeHole s i) pos holeSize payload blockSize

/-- `allocate` with a positive `iterration`: no second expansion. The address 0 is `NULL`. -/
def allocateAgain (s : HeapState W) (size : Nat) (shouldAlign : Bool) : HeapState W × Nat :=
  let newSize := wrap32 (size + 20)
  match findSmallestHole s newSize shouldAlign with
  | none => (s, 0)
  | some i => carve s i size newSize shouldAlign

/-- `allocate` with `iterration` 0. -/
def allocate (ops : PagingOps W) (s : HeapState W) (size : Nat) (shouldAlign : Bool) :
    Option (HeapState W × Nat) :=
  let newSize := wrap32 (size + 20)
  match findSmallestHole s newSize shouldAlign with
  | some i => some (carve s i size newSize shouldAlign)
  | none =>
    let oldEndAddress := s.heap.endAddress
    let oldLength := sub32 oldEndAddress s.heap.startAddress
    let newLength := wrap32 (oldLength + newSize)
    if s.heap.maxEndAddress < wrap32 (s.heap.startAddress + newLength) then some (s, 0)
    else
      (expand ops s newLength).map fun s =>
        allocateAgain (absorbExpansion s oldEndAddress oldLength) size shouldAlign

/-- The bump allocator of a bootstrapped heap. -/
def placementAllocate (heap : HeapManager) (size : Nat) (shouldAlign : Bool) : HeapManager × Nat :=
  let base :=
    if shouldAlign ∧ heap.placementAddress &&& 0xFFF ≠ 0 then
      wrap32 ((heap.placementAddress &&& 0xFFFFF000) + 0x1000)
    else heap.placementAddress
  ({ heap with placementAddress := wrap32 (base + size) }, base)

/-- `heap_manager_malloc`. -/
def heapManagerMalloc (ops : PagingOps W) (s : HeapState W) (size : Nat) (shouldAlign : Bool) :
    Option (HeapState W × Nat) :=
  match s.heap.status with
  | .initialized => allocate ops s size shouldAlign
  | .bootstraped =>
    let r := placementAllocate s.heap size shouldAlign
    some ({ s with heap := r.1 }, r.2)
  | .uninitialized => some (s, 0)

/-! ## Release -/

/-- `while (i < size && array[i] != header) i++`. -/
def searchFrom (array : List Nat) (header i : Nat) : Nat :=
  if i < array.length then i + (array.drop i).findIdx (fun h => h == header) else i

/-- Whether the footer before `header` belongs to a hole. -/
def leftIsHole (m : Memory) (header : Nat) : Bool :=
  let testFooter := sub32 header 8
  footerMagic m testFooter = heapMagic ∧ headerIsHole m (footerHeader m testFooter) ≠ 0

/-- Whether the word `unallocate` takes for the header after `footer` says that it is a hole. -/
def rightIsHole (m : Memory) (footer : Nat) : Bool :=
  -- `footer + sizeof(heap_footer_t)` counts footers, not bytes
  let testHeader := wrap32 (footer + 64)
  headerMagic m testHeader = heapMagic ∧ headerIsHole m testHeader ≠ 0

/-- The left merge of `unallocate`: the memory and the header after it. -/
def mergeLeft (m : Memory) (header footer : Nat) : Memory × Nat :=
  if leftIsHole m header then
    let cacheSize := headerSize m header
    let left := footerHeader m (sub32 header 8)
    let m := setFooterHeader m footer left
    (setHeaderSize m left (wrap32 (headerSize m left + cacheSize)), left)
  else (m, header)

/-- The right merge of `unallocate`: the state, the footer and the counter `i` after it. -/
def mergeRight (s : HeapState W) (header footer i : Nat) : HeapState W × Nat × Nat :=
  if rightIsHole s.mem footer then
    let testHeader := wrap32 (footer + 64)
    let size := wrap32 (headerSize s.mem header + headerSize s.mem testHeader)
    let m := setHeaderSize s.mem header size
    let testFooter := sub32 (wrap32 (testHeader + headerSize m testHeader)) 8
    let i := searchFrom s.heap.heapArray.array testHeader 0
    (removeHole { s with mem := m } i, testFooter, i)
  else (s, footer, i)

/-- The last hole, after the heap has lost `removed` bytes at its end. -/
def shrinkHole (s : HeapState W) (header testHeader i removed : Nat) : HeapState W :=
  let size := sub32 (headerSize s.mem header) removed
  if 0 < size then
    let m := setHeaderSize s.mem header size
    { s with mem := writeFooter m (sub32 (wrap32 (header + size)) 8) header }
  else
    let i := searchFrom s.heap.heapArray.array testHeader i
    if i < orderedArraySize s.heap.heapArray then removeHole s i else s

/-- The contraction at the end of `unallocate`, when the hole reaches the end of the heap. -/
def releaseEnd (ops : PagingOps W) (s : HeapState W) (header testHeader i : Nat) : HeapState W :=
  let oldLength := sub32 s.heap.endAddress s.heap.startAddress
  let r := contract ops s (sub32 header s.heap.startAddress)
  shrinkHole r.1 header testHeader i (sub32 oldLength r.2)

/--
`unallocate`. The variable `i` has no initial value in the source and can be read before it is
assigned; `i₀` is whatever it then holds.
-/
def unallocate (ops : PagingOps W) (s : HeapState W) (address i₀ : Nat) : HeapState W :=
  if address = 0 then s
  else
    let header := sub32 address 12
    let footer := sub32 (wrap32 (header + headerSize s.mem header)) 8
    let m := setHeaderIsHole s.mem header 1
    let shouldAdd := !leftIsHole m header
    let l := mergeLeft m header footer
    let r := mergeRight { s with mem := l.1 } l.2 footer i₀
    let s := r.1
    let s :=
      if wrap32 (r.2.1 + 8) = s.heap.endAddress then
        releaseEnd ops s l.2 (wrap32 (footer + 64)) r.2.2
      else s
    if shouldAdd then insertHole s l.2 else s

/-- `heap_manager_free`. -/
def heapManagerFree (ops : PagingOps W) (s : HeapState W) (address i₀ : Nat) : HeapState W :=
  if s.heap.status = .initialized then unallocate ops s address i₀ else s

/-- The loop of `heap_manager_free_all`. It does not end when no address passes `endAddress`. -/
def freeAllLoop (freeSingle : W → Nat → Bool → W) (endAddress : Nat) :
    (fuel addr : Nat) → W → Option W
  | 0, _, _ => none
  | fuel + 1, addr, w =>
    if addr < endAddress then
      freeAllLoop freeSingle endAddress fuel (wrap32 (addr + 0x1000)) (freeSingle w addr true)
    else some w

/-- `heap_manager_free_all`. -/
def heapManagerFreeAll (ops : PagingOps W) (s : HeapState W) : Option (HeapState W) :=
  if s.heap.status ≠ .initialized then some s
  else
    let currentSize := sub32 s.heap.endAddress s.heap.startAddress
    let minEnd := wrap32 (s.heap.startAddress + heapMinSize)
    let paging :=
      if heapMinSize < currentSize then
        freeAllLoop ops.freeSingle s.heap.endAddress 0x100001 minEnd s.paging
      else some s.paging
    paging.map fun paging =>
      let hole := s.heap.startAddress
      let m := writeHeader s.mem hole heapMinSize 1
      let m := writeFooter m (sub32 minEnd 8) hole
      insertHole
        { heap := { s.heap with
            endAddress := minEnd
            heapArray := orderedArrayClear s.heap.heapArray }
          mem := m
          paging := paging } hole

end Xylophone
