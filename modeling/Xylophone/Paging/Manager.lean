import Mathlib.Logic.Function.Basic
import Xylophone.Heap.Manager
import Xylophone.Paging.PhysicalMemory

/-!
# `paging-manager.c`

The two-level page tables of a page directory. The directory holds an entry for each slot of
4 MiB and a pointer to the page table of the slot (`ref_tables`, 0 for `NULL`); a page table holds
an entry for each of the 1024 pages of the slot. Page tables are kept by their addresses, and they
are not part of `mem`. Besides the paging manager only one thing writes them: `free_page` gives any
frame back, and the bit of a block that the bitmap does not have lies in the memory behind it, where
directory and page tables may lie. What that write makes of them is the parameter `behind`.

The paging manager takes page tables from a heap. `malloc` is that call,
`heap_manager_malloc(heap_manager, sizeof(page_table_t), 1, NULL)`. It may come back into the
paging manager when the heap grows, so it runs on the whole state, and may not return (`none`).

Left out: the functions that load `cr3` and `cr0`, and the bits of an entry that nothing writes.
-/

namespace Xylophone

open Infra

/-- `page_directory_entry_t`. -/
structure PageDirectoryEntry where
  present : Bool
  rw : Bool
  user : Bool
  pageSize : Bool
  frame : Nat
deriving DecidableEq, Repr

/-- `page_entry_t`. -/
structure PageEntry where
  present : Bool
  rw : Bool
  user : Bool
  frame : Nat
deriving DecidableEq, Repr

/-- `page_table_t`. -/
abbrev PageTable := Nat → PageEntry

/-- A page table after `memset(table, 0, sizeof(page_table_t))`. -/
def clearedTable : PageTable := fun _ => ⟨false, false, false, 0⟩

/-- `page_directory_t`. -/
structure PageDirectory where
  tables : Nat → PageDirectoryEntry
  refTables : Nat → Nat

/-- A page directory after `memset(page_directory, 0, sizeof(page_directory_t))`. -/
def clearedDirectory : PageDirectory where
  tables := fun _ => ⟨false, false, false, false, 0⟩
  refTables := fun _ => 0

/-- A paging manager with its page directory, its page tables and its physical memory manager. -/
structure PagingWorld where
  directory : PageDirectory
  tables : Nat → PageTable
  pmm : PhysicalMemoryManager
  isInitialized : Bool
  hasHeapManager : Bool
  /-- The static variable `is_enabled`. -/
  isEnabled : Bool
  /-- What clearing the bit of a block behind the bitmap makes of the directory and the page tables. -/
  behind : Nat → PageDirectory × (Nat → PageTable) → PageDirectory × (Nat → PageTable) := fun _ m => m

/-- The state of the heap that the pages are for, and of the paging manager. -/
abbrev Kernel := HeapState PagingWorld

/-- Where page tables come from. -/
abbrev TableSource := Kernel → Option (Kernel × Nat)

def pageDirIdx (virtualAddress : Nat) : Nat := virtualAddress >>> 22

def pageTblIdx (virtualAddress : Nat) : Nat := (virtualAddress >>> 12) &&& 0x3FF

/-- `paging_manager_init` with `should_clear`. -/
def pagingManagerInit (w : PagingWorld) (hasHeapManager : Bool) (pmm : PhysicalMemoryManager) :
    PagingWorld :=
  { w with
    hasHeapManager := hasHeapManager, pmm := pmm, directory := clearedDirectory, isInitialized := true }

/-- `virtual_2_physical`. -/
def virtual2Physical (w : PagingWorld) (virtualAddress : Nat) : Nat :=
  if !w.isEnabled then sub32 virtualAddress 0xC0000000
  else
    let table := w.directory.refTables (pageDirIdx virtualAddress)
    if table = 0 then 0
    else
      let page := w.tables table (pageTblIdx virtualAddress)
      if !page.present then 0
      else wrap32 (page.frame <<< 12 + (virtualAddress &&& 0xFFF))

/-- `paging_manager_get_physical_address`. -/
def getPhysicalAddress (w : PagingWorld) (virtualAddress : Nat) : Nat :=
  virtual2Physical w virtualAddress

/-! ## `allocate_page` -/

/-- A new page table at `table`, entered into the directory. -/
def installTable (w : PagingWorld) (dirIdx table : Nat) (isKernel isWriteable : Bool) :
    PagingWorld :=
  let w := { w with tables := Function.update w.tables table clearedTable }
  let t := virtual2Physical w table
  { w with
    directory :=
      { tables := Function.update w.directory.tables dirIdx
          { frame := (t >>> 12) % 0x100000, present := true, rw := isWriteable, user := !isKernel
            pageSize := false }
        refTables := Function.update w.directory.refTables dirIdx table } }

/-- The first half of `allocate_page`: the page table of the slot. -/
def ensureTable (malloc : TableSource) (s : Kernel) (virtualAddress : Nat)
    (isKernel isWriteable : Bool) : Option (Kernel × Nat) :=
  let table := s.paging.directory.refTables (pageDirIdx virtualAddress)
  if table = 0 then
    (malloc s).map fun r =>
      ({ r.1 with
          paging := installTable r.1.paging (pageDirIdx virtualAddress) r.2 isKernel isWriteable },
        r.2)
  else some (s, table)

/-- The assignments that make a page present. The frame field has 20 bits. -/
def setPage (w : PagingWorld) (table tblIdx frame : Nat) (isKernel isWriteable : Bool) :
    PagingWorld :=
  { w with
    tables := Function.update w.tables table
      (Function.update (w.tables table) tblIdx
        { frame := frame % 0x100000, present := true, rw := isWriteable, user := !isKernel }) }

/--
The second half of `allocate_page`: the page in the page table. With `frame` 0 the page gets a
block of the physical memory manager. `none` is the halt when there is no block and no handle.
-/
def ensurePage (w : PagingWorld) (table virtualAddress frame : Nat) (isKernel isWriteable : Bool) :
    Option PagingWorld :=
  let tblIdx := pageTblIdx virtualAddress
  if (w.tables table tblIdx).present then some w
  else if frame ≠ 0 then some (setPage w table tblIdx frame isKernel isWriteable)
  else
    let r := allocateBlock w.pmm
    if isValidBlock r.1 r.2 then
      some (setPage { w with pmm := r.1 } table tblIdx r.2 isKernel isWriteable)
    else if r.1.hasFailure then some { w with pmm := { r.1 with failed := true } }
    else none

/-- `allocate_page`. -/
def allocatePage (malloc : TableSource) (s : Kernel) (virtualAddress frame : Nat)
    (isKernel isWriteable : Bool) : Option Kernel :=
  (ensureTable malloc s virtualAddress isKernel isWriteable).bind fun r =>
    (ensurePage r.1.paging r.2 virtualAddress frame isKernel isWriteable).map fun w =>
      { r.1 with paging := w }

/-- The assignments that make a page absent. -/
def clearPage (w : PagingWorld) (table tblIdx : Nat) : PagingWorld :=
  { w with
    tables := Function.update w.tables table (Function.update (w.tables table) tblIdx
      { w.tables table tblIdx with present := false, frame := 0 }) }

/-- `physical_memory_manager_free_block`, as `free_page` calls it. -/
def giveBack (w : PagingWorld) (block : Nat) : PagingWorld :=
  let w' := { w with pmm := freeBlock w.pmm block }
  if w.pmm.isInitialized && !isValidBlock w.pmm block then
    let m := w.behind block (w.directory, w.tables)
    { w' with directory := m.1, tables := m.2 }
  else w'

/-- `free_page`. -/
def freePage (w : PagingWorld) (virtualAddress : Nat) (shouldFree : Bool) : PagingWorld :=
  let table := w.directory.refTables (pageDirIdx virtualAddress)
  let tblIdx := pageTblIdx virtualAddress
  if table = 0 then w
  else if !(w.tables table tblIdx).present then w
  else
    clearPage (if shouldFree then giveBack w (w.tables table tblIdx).frame else w) table tblIdx

/-! ## The calls -/

/-- The test of the mapping functions. -/
def canAllocate (w : PagingWorld) : Bool := w.isInitialized && w.hasHeapManager

/--
`for (; start_address <= end_address; start_address += PAGE_SIZE)`. When the address wraps around
the loop never ends; the fuel `(end - start) / PAGE_SIZE + 2` is enough for every loop that does.
-/
def rangeLoop {σ : Type} (f : σ → Nat → Option σ) (endAddress : Nat) :
    (fuel startAddress : Nat) → σ → Option σ
  | 0, _, _ => none
  | fuel + 1, startAddress, s =>
    if startAddress ≤ endAddress then
      (f s startAddress).bind (rangeLoop f endAddress fuel (wrap32 (startAddress + 0x1000)))
    else some s

def rangeFuel (startAddress endAddress : Nat) : Nat := (endAddress - startAddress) / 0x1000 + 2

/-- `paging_manager_identity_allocate_single`. -/
def identityAllocateSingle (malloc : TableSource) (s : Kernel) (address : Nat)
    (isKernel isWriteable : Bool) : Option Kernel :=
  if canAllocate s.paging then allocatePage malloc s address (address / 0x1000) isKernel isWriteable
  else some s

/-- `paging_manager_identity_allocate_range`. -/
def identityAllocateRange (malloc : TableSource) (s : Kernel) (startAddress endAddress : Nat)
    (isKernel isWriteable : Bool) : Option Kernel :=
  if canAllocate s.paging then
    rangeLoop (fun s address => allocatePage malloc s address (address / 0x1000) isKernel isWriteable)
      endAddress (rangeFuel startAddress endAddress) startAddress s
  else some s

/-- `paging_manager_allocate_single`. -/
def allocateSingle (malloc : TableSource) (s : Kernel) (address : Nat)
    (isKernel isWriteable : Bool) : Option Kernel :=
  if canAllocate s.paging then allocatePage malloc s address 0 isKernel isWriteable
  else some s

/-- `paging_manager_allocate_range`. -/
def allocateRange (malloc : TableSource) (s : Kernel) (startAddress endAddress : Nat)
    (isKernel isWriteable : Bool) : Option Kernel :=
  if canAllocate s.paging then
    rangeLoop (fun s address => allocatePage malloc s address 0 isKernel isWriteable)
      endAddress (rangeFuel startAddress endAddress) startAddress s
  else some s

/-- `paging_manager_free_single`. -/
def freeSingle (w : PagingWorld) (address : Nat) (shouldFree : Bool) : PagingWorld :=
  if w.isInitialized then freePage w address shouldFree else w

/-- `paging_manager_free_range`. -/
def freeRange (w : PagingWorld) (startAddress endAddress : Nat) (shouldFree : Bool) :
    Option PagingWorld :=
  if w.isInitialized then
    rangeLoop (fun w address => some (freePage w address shouldFree))
      endAddress (rangeFuel startAddress endAddress) startAddress w
  else some w

/-- `paging_manager_allocate_to_physical`. -/
def allocateToPhysical (malloc : TableSource) (s : Kernel) (virtualAddress physicalAddress : Nat)
    (isKernel isWriteable : Bool) : Option Kernel :=
  if canAllocate s.paging then
    allocatePage malloc s virtualAddress (physicalAddress >>> 12) isKernel isWriteable
  else some s

/-- The paging manager as the heap calls it. -/
def pagingOps (malloc : TableSource) : PagingOps PagingWorld where
  allocateRange := allocateRange malloc
  identityAllocateRange := identityAllocateRange malloc
  freeSingle := freeSingle

/-- Page tables from the heap of the state. A heap that has to grow for a page table calls back
into the paging manager; the fuel bounds how deep the calls nest. -/
def heapTables : (fuel : Nat) → TableSource
  | 0, _ => none
  | fuel + 1, s => heapManagerMalloc (pagingOps (heapTables fuel)) s 0x1000 true

end Xylophone
